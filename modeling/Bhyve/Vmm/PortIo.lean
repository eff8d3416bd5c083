import Bhyve.Vmm.Strings

/-!
The port instructions that emulate_inout carries out: IN and OUT through RAX, and their string forms
in batches of at most 16 elements, each of them ending in a restart of the instruction. The guest and
the functions that copy from and to it are those of the string instructions.
-/
namespace Inout
open StepRuns VmmDecoder VmmLinearAddress VmmStrings BitVec

structure Vis where
  rep : Bool
  addrsize : Nat
  addressed : addrsize ∈ [2, 4, 8]
  segName : VmRegName
  segDesc : SegDesc
  cpuMode : CpuMode
  cpl : Nat
  cr0 : BitVec 64

structure Exit where
  bytes : Nat
  sized : bytes ∈ [1, 2, 4]
  isIn : Bool
  port : Nat
  string : Option Vis

structure Port (G : Type) where
  isDefault : Bool
  flagIn : Bool
  flagOut : Bool
  handler : G → Bool → Nat → Nat → BitVec 32 → Int × BitVec 32 × G

inductive Stop where
  | fault
  | failed (retval : Int)

def Vis.vie (vis : Vis) : Vie := { vieInit [] with addrsize := vis.addrsize }

section
variable {G C : Type} (P : Platform G C) (port : Port G) (x : Exit) (vis : Vis)

def refuses (strict : Bool) : Bool :=
  strict && port.isDefault || !(if x.isIn then port.flagIn else port.flagOut)

def transfer (rflags : BitVec 64) (g : G) (index : BitVec 64) : Except (Stop × G) G :=
  let prot := if x.isIn then protWrite else protRead
  match vieCalculateGla vis.cpuMode vis.segName vis.segDesc index x.bytes vis.addrsize prot with
  | none => .error (.fault, P.inject g .gp)
  | some gla =>
      match P.vmCopySetup g gla x.bytes prot with
      | .failed g => .error (.failed (-1), g)
      | .fault g => .error (.fault, g)
      | .mapped copyinfo g =>
          if TaskSwitch.vieAlignmentCheck vis.cpl x.bytes vis.cr0 rflags gla then
            .error (.fault, P.inject g .ac)
          else
            let (val, g) := if x.isIn then (0, g) else P.vmCopyin g copyinfo x.bytes
            let (retval, val, g) := port.handler g x.isIn x.port x.bytes (val.setWidth 32)
            if retval ≠ 0 then .error (.failed retval, g)
            else .ok (if x.isIn then P.vmCopyout g copyinfo (val.setWidth 64) x.bytes else g)

def batch (rflags : BitVec 64) : Nat → BitVec 64 → BitVec 64 → G →
    Option Stop × BitVec 64 × BitVec 64 × G
  | 0, index, count, g => (none, index, count, g)
  | iterations + 1, index, count, g =>
      match transfer P port x vis rflags g index with
      | .error (stop, g) => (some stop, index, count, g)
      | .ok g => batch rflags iterations (stride rflags index x.bytes) (count - 1) g

def Exit.index (x : Exit) (regs : Regs) : BitVec 64 := if x.isIn then regs.rdi else regs.rsi

def Exit.setIndex (x : Exit) (regs : Regs) (index : BitVec 64) : Regs :=
  if x.isIn then { regs with rdi := index } else { regs with rsi := index }

/-- What stopped the loop, whether the instruction is to be restarted, and the registers. -/
structure Emulated (G : Type) where
  stop : Option Stop
  restart : Bool
  regs : Regs
  guest : G

/-- A handler that fails, or an operand that is nowhere, ends the emulation; the guest has to handle a
    fault. -/
def resumes : Option Stop → Bool
  | some (.failed _) => false
  | _ => true

def updateCount (rcx count : BitVec 64) : Except Nat (BitVec 64) :=
  if vis.rep then vieUpdateRegister rcx count vis.addrsize else .ok rcx

def emulateString (regs : Regs) (g : G) : Except Nat (Emulated G) := do
  let count := cut vis.vie (if vis.rep then regs.rcx else 1)
  let (stop, index, count, g) :=
    batch P port x vis regs.rflags (min count.toNat 16) (cut vis.vie (x.index regs)) count g
  let index ← vieUpdateRegister (x.index regs) index vis.addrsize
  let rcx ← updateCount vis regs.rcx count
  .ok ⟨stop, resumes stop && decide (count ≠ 0), { x.setIndex regs index with rcx }, g⟩

def emulateAgain : Nat → Regs → G → Except Nat (Emulated G)
  | 0, regs, g => .ok ⟨none, true, regs, g⟩
  | fuel + 1, regs, g => do
      let done ← emulateString P port x vis regs g
      if done.stop.isNone ∧ done.restart then emulateAgain fuel done.regs done.guest else .ok done

def emulatePort (regs : Regs) (g : G) : Emulated G :=
  let eax := regs.rax.setWidth 32
  let mask := (vieSize2mask x.bytes).setWidth 32
  let called := port.handler g x.isIn x.port x.bytes (eax &&& mask)
  if called.1 = 0 then
    ⟨none, false,
      if x.isIn then
        { regs with rax := (eax &&& ~~~mask ||| called.2.1 &&& mask).setWidth 64 }
      else regs,
      called.2.2⟩
  else ⟨some (.failed called.1), false, regs, called.2.2⟩

def emulateInout (strict : Bool) (fuel : Nat) (regs : Regs) (g : G) : Except Nat (Emulated G) :=
  if refuses port x strict then .ok ⟨some (.failed (-1)), false, regs, g⟩
  else
    match x.string with
    | some vis => emulateAgain P port x vis fuel regs g
    | none => .ok (emulatePort port x regs g)

end

section
variable {G C : Type} (P : Platform G C) (port : Port G) (x : Exit) (vis : Vis)

def times (regs : Regs) : Nat := (cut vis.vie regs.rcx).toNat

def element (regs : Regs) (g : G) (k : Nat) : Except (Nat × Stop × G) G :=
  (transfer P port x vis regs.rflags g (strided regs.rflags (x.index regs) x.bytes k)).mapError
    fun stopped => (k, stopped)

structure Shows (before : Regs) (k : Nat) (after : Regs) : Prop where
  count : (cut vis.vie after.rcx).toNat + k = times vis before
  countHigh : HighKept vis.vie before.rcx after.rcx
  index : Moved vis.vie (x.index before) (x.index after)
    (strided before.rflags (x.index before) x.bytes k)
  others : after = { x.setIndex before (x.index after) with rcx := after.rcx }

/-- Elements that all complete leave a count of zero, and one that stops leaves those before it. -/
def Finishes (before : Regs) (elements : Except (Nat × Stop × G) G)
    (ended : Except Nat (Emulated G)) : Prop :=
  match elements with
  | .ok g => ∃ regs, ended = .ok ⟨none, false, regs, g⟩ ∧ Shows x vis before (times vis before) regs
  | .error (k, stop, g) => k < times vis before ∧ ∃ restart regs,
      ended = .ok ⟨some stop, restart, regs, g⟩ ∧ Shows x vis before k regs

def readInto (bytes : Nat) (rax : BitVec 64) (val : BitVec 32) : BitVec 64 :=
  if bytes = 4 then val.setWidth 64
  else rax &&& ~~~vieSize2mask bytes ||| val.setWidth 64 &&& vieSize2mask bytes

def portVal (regs : Regs) : BitVec 32 :=
  regs.rax.setWidth 32 &&& (vieSize2mask x.bytes).setWidth 32

def portResult (regs : Regs) (g : G) : Emulated G :=
  let called := port.handler g x.isIn x.port x.bytes (portVal x regs)
  if called.1 = 0 then
    ⟨none, false,
      if x.isIn then { regs with rax := readInto x.bytes regs.rax called.2.1 } else regs, called.2.2⟩
  else ⟨some (.failed called.1), false, regs, called.2.2⟩

structure EmulatesString (regs : Regs) (g : G) (emulated : Nat → Except Nat (Emulated G)) : Prop where
  runs : ∀ fuel, times vis regs < fuel → Finishes x vis regs
    (attempts (element P port x vis regs) g (List.range' 0 (times vis regs))) (emulated fuel)
  untouched : times vis regs = 0 → ∀ fuel, emulated (fuel + 1) = .ok ⟨none, false, regs, g⟩

def Emulates (strict : Bool) (regs : Regs) (g : G) : Prop :=
  refuses port x strict = true ∨
    match x.string with
    | none => ∀ fuel, emulateInout P port x strict fuel regs g = .ok (portResult port x regs g)
    | some vis => vis.rep = true →
        EmulatesString P port x vis regs g fun fuel => emulateInout P port x strict fuel regs g

def HighClear (strict : Bool) (regs : Regs) (g : G) : Prop :=
  refuses port x strict = true ∨
    match x.string with
    | none => x.isIn = true → x.bytes ≠ 4 →
        (port.handler g true x.port x.bytes (portVal x regs)).1 = 0 → regs.rax.toNat < 2 ^ 32
    | some vis => vis.rep = true → vis.addrsize = 4 → times vis regs = 0 →
        (x.index regs).toNat < 2 ^ 32 ∧ regs.rcx.toNat < 2 ^ 32

end
section
variable {G C : Type} {P : Platform G C} {port : Port G} {x : Exit} {vis : Vis} {before regs : Regs}

theorem addressed (vis : Vis) : AddressSized vis.vie := vis.addressed

theorem transfer_cut {rflags index index' : BitVec 64} (g : G)
    (same : cut vis.vie index' = cut vis.vie index) :
    transfer P port x vis rflags g index' = transfer P port x vis rflags g index := by
  have reached := @calculate_gla_cut vis.vie vis.cpuMode vis.segName vis.segDesc index index' x.bytes
    (if x.isIn then protWrite else protRead) same
  have same_size : vis.vie.addrsize = vis.addrsize := rfl
  rw [same_size] at reached
  unfold transfer
  dsimp only
  rw [reached]

theorem attempts_append {S E X : Type} {step : S → E → Except X S} (first second : List E) :
    ∀ s, attempts step s (first ++ second) = attempts step s first >>= (attempts step · second) := by
  induction first with
  | nil => exact fun s => rfl
  | cons e rest ih =>
    intro s
    simp only [List.cons_append, attempts]
    cases step s e with
    | error p => rfl
    | ok s' => exact ih s'

theorem batch_elements (iterations : Nat) : ∀ (k : Nat) (index count : BitVec 64) (g : G),
    cut vis.vie index = cut vis.vie (strided before.rflags (x.index before) x.bytes k) →
    match attempts (element P port x vis before) g (List.range' k iterations) with
    | .ok g' => ∃ index', batch P port x vis before.rflags iterations index count g =
        (none, index', count - BitVec.ofNat 64 iterations, g') ∧
          cut vis.vie index' =
            cut vis.vie (strided before.rflags (x.index before) x.bytes (k + iterations))
    | .error (j, stop, g') => ∃ done index', j = k + done ∧ done < iterations ∧
        batch P port x vis before.rflags iterations index count g =
          (some stop, index', count - BitVec.ofNat 64 done, g') ∧
          cut vis.vie index' = cut vis.vie (strided before.rflags (x.index before) x.bytes j) := by
  induction iterations with
  | zero =>
    intro k index count g same
    exact ⟨index, by rw [batch, BitVec.sub_zero], same⟩
  | succ iterations ih =>
    intro k index count g same
    rw [List.range'_succ, attempts, batch, transfer_cut g same]
    cases taken : transfer P port x vis before.rflags g
        (strided before.rflags (x.index before) x.bytes k) with
    | error stopped =>
      have stops : element P port x vis before g k = .error (k, stopped) := by
        rw [element, taken]
        rfl
      rw [stops]
      exact ⟨0, index, rfl, Nat.succ_pos _, by rw [BitVec.sub_zero], same⟩
    | ok g' =>
      have goes : element P port x vis before g k = .ok g' := by
        rw [element, taken]
        rfl
      rw [goes]
      have further : cut vis.vie (stride before.rflags index x.bytes) =
          cut vis.vie (strided before.rflags (x.index before) x.bytes (k + 1)) := by
        rw [← stride_strided, stride_add, stride_add]
        exact cut_add_congr (addressed vis) same _
      have one_less : ∀ n : Nat, count - 1 - BitVec.ofNat 64 n = count - BitVec.ofNat 64 (n + 1) := by
        intro n
        rw [BitVec.sub_sub, BitVec.add_comm, ofNat_add]
        rfl
      have rest := ih (k + 1) (stride before.rflags index x.bytes) (count - 1) g' further
      simp only [one_less, Nat.add_right_comm k 1] at rest
      dsimp only
      split at rest
      · exact rest
      · obtain ⟨done, index', place, within, ran, shown⟩ := rest
        exact ⟨done + 1, index', by omega, by omega, ran, shown⟩

theorem index_set (regs : Regs) (v w : BitVec 64) :
    x.index { x.setIndex regs v with rcx := w } = v ∧
      ({ x.setIndex regs v with rcx := w } : Regs).rflags = regs.rflags := by
  unfold Exit.index Exit.setIndex
  cases x.isIn <;> exact ⟨rfl, rfl⟩

theorem set_set (regs : Regs) (v v' w : BitVec 64) :
    x.setIndex { x.setIndex regs v with rcx := w } v' = { x.setIndex regs v' with rcx := w } := by
  unfold Exit.setIndex
  cases x.isIn <;> rfl

theorem set_index_self (regs : Regs) : x.setIndex regs (x.index regs) = regs := by
  unfold Exit.setIndex Exit.index
  cases x.isIn <;> rfl

theorem shows_start (regs : Regs) : Shows x vis regs 0 regs := by
  refine ⟨rfl, fun _ => rfl, ?_, ?_⟩
  · rw [strided_zero]
    exact ⟨rfl, fun _ => rfl⟩
  · rw [set_index_self]

theorem shows_rflags {k : Nat} (shown : Shows x vis before k regs) : regs.rflags = before.rflags := by
  rw [shown.others]
  exact (index_set before _ _).2

theorem count_left {r : BitVec 64} {d : Nat} (enough : d ≤ (cut vis.vie r).toNat) :
    (cut vis.vie (cut vis.vie r - BitVec.ofNat 64 d)).toNat = (cut vis.vie r).toNat - d := by
  rw [cut_to_nat (addressed vis), toNat_sub, toNat_ofNat]
  have bound := cut_to_nat (addressed vis) r
  generalize (cut vis.vie r).toNat = n at *
  rcases sized_cases (addressed vis) with two | four | eight
  · rw [two] at bound ⊢
    omega
  · rw [four] at bound ⊢
    omega
  · rw [eight] at bound ⊢
    omega

theorem shows_updated {k done : Nat} {index' : BitVec 64} (shown : Shows x vis before k regs)
    (enough : done ≤ (cut vis.vie regs.rcx).toNat) (moved : cut vis.vie index' =
      cut vis.vie (strided before.rflags (x.index before) x.bytes (k + done))) :
    ∃ v w, vieUpdateRegister (x.index regs) index' vis.addrsize = .ok v ∧
      vieUpdateRegister regs.rcx (cut vis.vie regs.rcx - BitVec.ofNat 64 done) vis.addrsize = .ok w ∧
      Shows x vis before (k + done) { x.setIndex regs v with rcx := w } := by
  obtain ⟨v, updated, stepped⟩ := update_moves (addressed vis) (x.index regs) index'
  obtain ⟨w, counted, left_⟩ :=
    update_moves (addressed vis) regs.rcx (cut vis.vie regs.rcx - BitVec.ofNat 64 done)
  refine ⟨v, w, updated, counted, ?_, ?_, ?_, ?_⟩
  · have before_ := shown.count
    rw [left_.low, count_left enough]
    omega
  · exact fun two => (left_.high two).trans (shown.countHigh two)
  · rw [(index_set regs v w).1]
    exact ⟨stepped.low.trans moved, fun two => (stepped.high two).trans (shown.index.high two)⟩
  · rw [(index_set regs v w).1, shown.others, set_set]

theorem string_ends (rep : vis.rep = true) {m : Nat} {g g' : G} {stop : Option Stop}
    {index' count' v w : BitVec 64} (left_ : (cut vis.vie regs.rcx).toNat = m)
    (ran : batch P port x vis regs.rflags (min m 16) (cut vis.vie (x.index regs))
      (cut vis.vie regs.rcx) g = (stop, index', count', g'))
    (updated : vieUpdateRegister (x.index regs) index' vis.addrsize = .ok v)
    (counted : vieUpdateRegister regs.rcx count' vis.addrsize = .ok w) :
    emulateString P port x vis regs g = .ok ⟨stop, resumes stop && decide (count' ≠ 0),
      { x.setIndex regs v with rcx := w }, g'⟩ := by
  have count : updateCount vis regs.rcx count' = .ok w := by rw [updateCount, if_pos rep, counted]
  unfold emulateString
  rw [if_pos rep]
  simp only [left_, ran]
  rw [updated]
  simp only [bind, Except.bind, count]

theorem string_once (rep : vis.rep = true) {k m : Nat} (g : G) (shown : Shows x vis before k regs)
    (all : k + m = times vis before) :
    match attempts (element P port x vis before) g (List.range' k (min m 16)) with
    | .ok g' => ∃ regs', emulateString P port x vis regs g =
        .ok ⟨none, decide (16 < m), regs', g'⟩ ∧ Shows x vis before (k + min m 16) regs'
    | .error (j, stop, g') => j < times vis before ∧ ∃ restart regs',
        emulateString P port x vis regs g = .ok ⟨some stop, restart, regs', g'⟩ ∧
          Shows x vis before j regs' := by
  have left_ : (cut vis.vie regs.rcx).toNat = m := by
    have := shown.count
    omega
  have start : cut vis.vie (cut vis.vie (x.index regs)) =
      cut vis.vie (strided before.rflags (x.index before) x.bytes k) :=
    (cut_cut (addressed vis) _).trans shown.index.low
  have batched := @batch_elements G C P port x vis before (min m 16) k _ (cut vis.vie regs.rcx) g start
  split at batched
  · obtain ⟨index', ran, moved⟩ := batched
    have enough : min m 16 ≤ (cut vis.vie regs.rcx).toNat := by omega
    obtain ⟨v, w, updated, counted, shown'⟩ := shows_updated shown enough moved
    have more : decide (cut vis.vie regs.rcx - BitVec.ofNat 64 (min m 16) ≠ 0) = decide (16 < m) := by
      rw [decide_eq_decide, ne_eq, ← toNat_inj, toNat_sub, toNat_ofNat]
      simp only [ofNat_eq_ofNat, toNat_ofNat]
      omega
    rw [← shows_rflags shown] at ran
    refine ⟨_, (string_ends rep left_ ran updated counted).trans ?_, shown'⟩
    rw [more]
    rfl
  · obtain ⟨done, index', rfl, within, ran, moved⟩ := batched
    have enough : done ≤ (cut vis.vie regs.rcx).toNat := by omega
    obtain ⟨v, w, updated, counted, shown'⟩ := shows_updated shown enough moved
    rw [← shows_rflags shown] at ran
    exact ⟨by omega, _, _, string_ends rep left_ ran updated counted, shown'⟩

theorem string_runs (rep : vis.rep = true) (m : Nat) : ∀ (k fuel : Nat) (regs : Regs) (g : G),
    Shows x vis before k regs → k + m = times vis before → m < fuel →
      Finishes x vis before
        (attempts (element P port x vis before) g (List.range' k m))
        (emulateAgain P port x vis fuel regs g) := by
  induction m using Nat.strongRecOn with
  | ind m ih =>
    intro k fuel regs g shown all enough
    obtain ⟨fuel, rfl⟩ : ∃ f, fuel = f + 1 := ⟨fuel - 1, by omega⟩
    have once := @string_once G C P port x vis before regs rep k m g shown all
    have parts : List.range' k m =
        List.range' k (min m 16) ++ List.range' (k + min m 16) (m - min m 16) := by
      rw [List.range'_append_1]
      congr 1
      omega
    rw [parts, attempts_append]
    unfold emulateAgain
    split at once
    · next g' elements =>
      obtain ⟨regs', ran, shown'⟩ := once
      rw [elements, ran]
      by_cases last : m ≤ 16
      · have none_left : m - min m 16 = 0 := by omega
        have whole : k + min m 16 = times vis before := by omega
        rw [none_left]
        rw [whole] at shown'
        refine ⟨regs', ?_, shown'⟩
        have stops : decide (16 < m) = false := decide_eq_false (by omega)
        rw [stops]
        rfl
      · have goes : decide (16 < m) = true := decide_eq_true (by omega)
        rw [goes]
        exact ih (m - min m 16) (by omega) (k + min m 16) fuel regs' g' shown' (by omega) (by omega)
    · next j stop g' elements =>
      obtain ⟨less, restart, regs', ran, shown'⟩ := once
      rw [elements, ran]
      exact ⟨less, restart, regs', rfl, shown'⟩

theorem update_cut (r : BitVec 64) : ∃ v, vieUpdateRegister r (cut vis.vie r) vis.addrsize = .ok v ∧
      (v = r ↔ (vis.addrsize = 4 → r.toNat < 2 ^ 32)) := by
  have low := cut_to_nat (addressed vis) r
  have same_size : vis.vie.addrsize = vis.addrsize := rfl
  unfold cut at low ⊢
  rw [same_size] at low ⊢
  have cases_ := sized_cases (addressed vis)
  rw [same_size] at cases_
  rcases cases_ with two | four | eight
  · rw [two]
    refine ⟨_, rfl, iff_of_true ?_ nofun⟩
    apply eq_of_getLsbD_eq
    intro i inside
    cases bit : (vieSize2mask 2)[i] <;> simp [bit, inside]
  · rw [four] at low ⊢
    refine ⟨_, rfl, ?_⟩
    have masked : r &&& vieSize2mask 4 &&& 0xffffffff = r &&& vieSize2mask 4 := by
      rw [BitVec.and_assoc]
      rfl
    rw [masked, ← toNat_inj, low]
    refine ⟨fun same _ => ?_, fun small => ?_⟩
    · omega
    · omega
  · rw [eight]
    refine ⟨_, rfl, iff_of_true (and_allOnes) nofun⟩

theorem none_once (rep : vis.rep = true) (none_left : times vis regs = 0) (fuel : Nat) (g : G) :
    emulateAgain P port x vis (fuel + 1) regs g = .ok ⟨none, false, regs, g⟩ ↔
      (vis.addrsize = 4 → (x.index regs).toNat < 2 ^ 32 ∧ regs.rcx.toNat < 2 ^ 32) := by
  have left_ : (cut vis.vie regs.rcx).toNat = 0 := none_left
  have zero : cut vis.vie regs.rcx = 0 := eq_of_toNat_eq left_
  obtain ⟨v, updated, index_same⟩ := @update_cut vis (x.index regs)
  obtain ⟨w, counted, count_same⟩ := @update_cut vis regs.rcx
  have nothing : batch P port x vis regs.rflags (min 0 16) (cut vis.vie (x.index regs))
      (cut vis.vie regs.rcx) g = (none, cut vis.vie (x.index regs), cut vis.vie regs.rcx, g) := rfl
  have once := string_ends rep left_ nothing updated counted
  have ended : decide (cut vis.vie regs.rcx ≠ 0) = false := by simp [zero]
  rw [ended] at once
  have again : emulateAgain P port x vis (fuel + 1) regs g =
      .ok ⟨none, false, { x.setIndex regs v with rcx := w }, g⟩ := by
    unfold emulateAgain
    rw [once]
    rfl
  have restored : ({ x.setIndex regs v with rcx := w } : Regs) = regs ↔
      v = x.index regs ∧ w = regs.rcx := by
    refine ⟨fun same => ?_, fun both => ?_⟩
    · have index_ := congrArg x.index same
      rw [(index_set regs v w).1] at index_
      exact ⟨index_, congrArg Regs.rcx same⟩
    · rw [both.1, both.2, set_index_self]
  rw [again]
  simp only [Except.ok.injEq, Emulated.mk.injEq, true_and, and_true, restored, index_same, count_same]
  exact ⟨fun both four => ⟨both.1 four, both.2 four⟩,
    fun both => ⟨fun four => (both four).1, fun four => (both four).2⟩⟩

theorem string_right_iff (rep : vis.rep = true) (g : G) :
    EmulatesString P port x vis regs g (emulateAgain P port x vis · regs g) ↔
      (vis.addrsize = 4 → times vis regs = 0 →
      (x.index regs).toNat < 2 ^ 32 ∧ regs.rcx.toNat < 2 ^ 32) := by
  constructor
  · intro right four none_left
    exact (none_once rep none_left 0 g).mp (right.untouched none_left 0) four
  · intro clear
    refine ⟨fun fuel enough => ?_, fun none_left fuel => ?_⟩
    · exact string_runs rep (times vis regs) 0 fuel regs g (shows_start regs) (Nat.zero_add _) enough
    · exact (none_once rep none_left fuel g).mpr fun four => clear four none_left

end

section
variable {G C : Type} {port : Port G} {x : Exit} {regs : Regs}

theorem low_half_iff (rax : BitVec 64) (val mask : BitVec 32) :
    (rax.setWidth 32 &&& ~~~mask ||| val &&& mask).setWidth 64 =
      (rax &&& ~~~mask.setWidth 64 ||| val.setWidth 64 &&& mask.setWidth 64) ↔
        rax.toNat < 2 ^ 32 := by
  constructor
  · intro same
    refine Nat.lt_pow_two_of_testBit _ fun i high => ?_
    have bit := congrArg (BitVec.getLsbD · i) same
    have outside : ∀ w : BitVec 32, w.getLsbD i = false := fun w => getLsbD_of_ge w i high
    by_cases inside : i < 64
    · simpa [outside, inside, testBit_toNat] using bit.symm
    · exact getLsbD_of_ge rax i (Nat.le_of_not_lt inside)
  · intro clear
    apply eq_of_getLsbD_eq
    intro i inside
    by_cases low : i < 32
    · simp [low, inside]
    · have none_ : rax.getLsbD i = false := Nat.testBit_lt_two_pow
        (Nat.lt_of_lt_of_le clear (Nat.pow_le_pow_right (by decide) (Nat.le_of_not_lt low)))
      have outside : ∀ w : BitVec 32, w.getLsbD i = false :=
        fun w => getLsbD_of_ge w i (Nat.le_of_not_lt low)
      simp [none_, outside]

theorem read_into_iff (val : BitVec 32) :
    ((regs.rax.setWidth 32 &&& ~~~(vieSize2mask x.bytes).setWidth 32 |||
        val &&& (vieSize2mask x.bytes).setWidth 32).setWidth 64 = readInto x.bytes regs.rax val) ↔
      (x.bytes ≠ 4 → regs.rax.toNat < 2 ^ 32) := by
  have sized := x.sized
  simp only [List.mem_cons, List.not_mem_nil, or_false] at sized
  have whole := low_half_iff regs.rax val ((vieSize2mask x.bytes).setWidth 32)
  unfold readInto
  rcases sized with one | two | four
  · rw [one] at whole ⊢
    simpa [vieSize2mask] using whole
  · rw [two] at whole ⊢
    simpa [vieSize2mask] using whole
  · have ones : (vieSize2mask 4).setWidth 32 = BitVec.allOnes 32 := by rfl
    rw [four, ones]
    refine iff_of_true ?_ fun other => absurd rfl other
    rw [not_allOnes, and_zero, zero_or, and_allOnes, if_pos rfl]

theorem port_right_iff (g : G) :
    emulatePort port x regs g = portResult port x regs g ↔ (x.isIn = true → x.bytes ≠ 4 →
      (port.handler g true x.port x.bytes (portVal x regs)).1 = 0 → regs.rax.toNat < 2 ^ 32) := by
  unfold portResult emulatePort
  have given : regs.rax.setWidth 32 &&& (vieSize2mask x.bytes).setWidth 32 = portVal x regs := rfl
  dsimp only
  rw [given]
  cases isIn : x.isIn with
  | false => simp
  | true =>
    generalize port.handler g true x.port x.bytes (portVal x regs) = called
    obtain ⟨retval, val, g'⟩ := called
    have put := @read_into_iff x regs val
    by_cases done : retval = 0
    · simp only [done, if_true, forall_const]
      rw [← put]
      exact ⟨fun same => congrArg (fun ended => ended.regs.rax) same, fun same => by rw [same]⟩
    · simp [done]

/-- A port instruction has the effect on the registers that it has on a processor just when no
    register that is set in its lower half has anything in the upper one. -/
theorem emulate_inout_iff (P : Platform G C) (strict : Bool) (g : G) :
    Emulates P port x strict regs g ↔ HighClear port x strict regs g := by
  unfold Emulates HighClear emulateInout
  by_cases refused : refuses port x strict = true
  · exact iff_of_true (.inl refused) (.inl refused)
  rw [or_iff_right refused, or_iff_right refused]
  simp only [if_neg refused]
  cases x.string with
  | none =>
    simp only [Except.ok.injEq, forall_const]
    exact port_right_iff g
  | some vis => exact forall_congr' fun rep => string_right_iff rep g

def zeroPort : Port Unit := ⟨false, true, true, fun g _ _ _ _ => (0, 0, g)⟩

def inByte : Exit := ⟨1, by decide, true, 0x60, none⟩

theorem upper_half_lost :
    ¬ ∀ (P : Platform Unit Unit) (regs : Regs), Emulates P zeroPort inByte false regs () := by
  intro always
  have guest : Platform Unit Unit := ⟨fun _ => .real, fun _ => 0, fun _ => 0, fun _ _ => ⟨0, 0, 0⟩,
    fun g _ => g, fun g gla _ => .ok (gla, g), fun g _ _ _ => .failed g, fun g _ _ => (0, g),
    fun g _ _ _ => g, fun g gpa _ => .ok (gpa, g), fun g _ _ _ => .ok g, fun _ _ rdi => rdi⟩
  rcases always guest ⟨0x100000000, 0, 0, 0, 0⟩ with refused | right
  · exact absurd refused (by decide)
  · have rax := congrArg (fun ended => ended.regs.rax) (Except.ok.inj (right 0))
    exact absurd rax (by decide)

end
end Inout
