import Bhyve.Vmm.Vlapic

/-!
The local vector table of a virtual APIC: its entries in the page of the APIC, the copies that are
fired, and the masking of all entries when the APIC is disabled.
-/
namespace VmmLvt
open StepRuns VmmVlapic Function

inductive Lvt where
  | lint0 | lint1 | timer | error | pmc | thermal | cmci
deriving DecidableEq

inductive Delivery where
  | irr (vector : BitVec 8)
  | ready (vector : BitVec 8) (level : Bool)
  | notify
  | nmi
  | extint
  | counted (lvt : Lvt)

structure Vlapic where
  lvt : Lvt → BitVec 32
  svr : BitVec 32
  esr : BitVec 32
  esrPending : BitVec 32
  svrLast : BitVec 32
  lvtLast : Lvt → BitVec 32
  apicbaseEnabled : Bool
  delivered : List Delivery

variable (v : Vlapic)

def Vlapic.deliver (d : Delivery) : Vlapic := { v with delivered := d :: v.delivered }

def Vlapic.setLvt (l : Lvt) (reg : BitVec 32) : Vlapic :=
  { v with lvt := update v.lvt l reg }

def svrEnabled (svr : BitVec 32) : Bool := svr.getLsbD apicSvrEnable
def lvtMasked (reg : BitVec 32) : Bool := reg.getLsbD 16

def apicLvtTm : BitVec 32 := 0x8000
def apicLvtRirr : BitVec 32 := 0x4000
def apicLvtIipp : BitVec 32 := 0x2000
def apicLvtDm : BitVec 32 := 0x700
def apicLvtDmNmi : BitVec 32 := 0x400
def apicLvtDmExtint : BitVec 32 := 0x700
def apicLvttTm : BitVec 32 := 0x60000

def writable : Lvt → BitVec 32
  | .timer => apicLvtM ||| apicLvtDs ||| apicLvtVector ||| apicLvttTm
  | .error => apicLvtM ||| apicLvtDs ||| apicLvtVector
  | .lint0 | .lint1 => apicLvtM ||| apicLvtDs ||| apicLvtVector |||
      (apicLvtTm ||| apicLvtRirr ||| apicLvtIipp) ||| apicLvtDm
  | _ => apicLvtM ||| apicLvtDs ||| apicLvtVector ||| apicLvtDm

def lvtWriteHandler (l : Lvt) : Vlapic :=
  let val := if svrEnabled v.svr then v.lvt l else v.lvt l ||| apicLvtM
  let val := val &&& writable l
  { v with lvt := update v.lvt l val, lvtLast := update v.lvtLast l val }

def maskLvt (l : Lvt) : Vlapic :=
  lvtWriteHandler (v.setLvt l (v.lvt l ||| apicLvtM)) l

def maskLvts (v : Vlapic) : Vlapic :=
  [Lvt.cmci, .timer, .thermal, .pmc, .lint0, .lint1, .error].foldl maskLvt v

section
variable (ops : Option (BitVec 8 → Bool → Bool))

mutual

def setError : Nat → Vlapic → BitVec 32 → Bool → Option Vlapic
  | 0, _, _, _ => none
  | fuel + 1, v, mask, lvtError =>
      let v := { v with esrPending := v.esrPending ||| mask }
      if lvtError then some v
      else
        match fireLvt fuel v .error with
        | none => none
        | some (v, fired) => some (if fired then v.deliver (.counted .error) else v)

def fireLvt : Nat → Vlapic → Lvt → Option (Vlapic × Bool)
  | 0, _, _ => none
  | fuel + 1, v, l =>
      let reg := v.lvtLast l
      let vec := reg.setWidth 8
      let mode := reg &&& apicLvtDm
      if lvtMasked reg then some (v, false)
      else if mode = 0 then
        if vec < 16 then
          match setError fuel v apicEsrSendIllegalVector (decide (l = .error)) with
          | none => none
          | some v => some (v, false)
        else
          match setIntrReady fuel v vec false with
          | none => none
          | some (v, ready) => some (if ready then v.deliver .notify else v, true)
      else if mode = apicLvtDmNmi then some (v.deliver .nmi, true)
      else if mode = apicLvtDmExtint then some (v.deliver .extint, true)
      else some (v, false)

def setIntrReady : Nat → Vlapic → BitVec 8 → Bool → Option (Vlapic × Bool)
  | 0, _, _, _ => none
  | fuel + 1, v, vector, level =>
      if svrEnabled v.svr = false then some (v, false)
      else if vector < 16 then
        match setError fuel v apicEsrReceiveIllegalVector false with
        | none => none
        | some v => some (v, true)
      else
        match ops with
        | some ready => some (v.deliver (.ready vector level), ready vector level)
        | none => some (v.deliver (.irr vector), true)

end

def depth : Nat := 4

def fireCounted (v : Vlapic) (l : Lvt) : Vlapic :=
  match fireLvt ops depth v l with
  | some (v, true) => v.deliver (.counted l)
  | some (v, false) => v
  | none => v

def lvtAt : Nat → Option Lvt
  | 0 => some .lint0
  | 1 => some .lint1
  | 2 => some .timer
  | 3 => some .error
  | 4 => some .pmc
  | 5 => some .thermal
  | 6 => some .cmci
  | _ => none

def triggerLvt (v : Vlapic) (vector : Nat) : Vlapic :=
  if v.apicbaseEnabled = false then
    match lvtAt vector with
    | some .lint0 => v.deliver .extint
    | some .lint1 => v.deliver .nmi
    | _ => v
  else
    match lvtAt vector with
    | some l => fireCounted ops v l
    | none => v

end

def svrWriteHandler (v : Vlapic) : Vlapic :=
  let changed := v.svrLast ^^^ v.svr
  let v := { v with svrLast := v.svr }
  if changed.getLsbD apicSvrEnable ∧ svrEnabled v.svr = false then maskLvts v else v

def esrWriteHandler (v : Vlapic) : Vlapic := { v with esr := v.esrPending, esrPending := 0 }

def lvtOfOffset : Nat → Option Lvt
  | 0x2f0 => some .cmci
  | 0x320 => some .timer
  | 0x330 => some .thermal
  | 0x340 => some .pmc
  | 0x350 => some .lint0
  | 0x360 => some .lint1
  | 0x370 => some .error
  | _ => none

def apicOffsetSvr : Nat := 0xf0
def apicOffsetEsr : Nat := 0x280

def vlapicWrite (offset : Nat) (data : BitVec 64) : Vlapic :=
  if offset = apicOffsetSvr then svrWriteHandler { v with svr := data.setWidth 32 }
  else if offset = apicOffsetEsr then esrWriteHandler v
  else
    match lvtOfOffset offset with
    | some l => lvtWriteHandler (v.setLvt l (data.setWidth 32)) l
    | none => v

def vlapicReset : Vlapic :=
  let v := maskLvts
    { lvt := fun _ => 0
      svr := apicSvrVector
      esr := 0
      esrPending := 0
      svrLast := 0
      lvtLast := fun _ => 0
      apicbaseEnabled := true
      delivered := [] }
  { v with svrLast := v.svr }

/-- What a snapshot holds of an APIC: its page, the pending errors and lvt_last, but not svr_last. -/
structure Image where
  lvt : Lvt → BitVec 32
  svr : BitVec 32
  esr : BitVec 32
  esrPending : BitVec 32
  lvtLast : Lvt → BitVec 32

def vlapicSave (v : Vlapic) : Image := ⟨v.lvt, v.svr, v.esr, v.esrPending, v.lvtLast⟩

def vlapicRestore (i : Image) : Vlapic :=
  { v with
    lvt := i.lvt
    svr := i.svr
    esr := i.esr
    esrPending := i.esrPending
    lvtLast := i.lvtLast }

/-- What befalls an APIC. A snapshot that is restored is one that was saved before, of this APIC or
    of one that it takes the place of. -/
inductive Event where
  | write (offset : Nat) (data : BitVec 64)
  | setError (mask : BitVec 32) (lvtError : Bool)
  | intrReady (vector : BitVec 8) (level : Bool)
  | fireTimer
  | fireCmci
  | trigger (vector : Nat)
  | setApicbase (enabled : Bool)
  | init
  | save
  | restore (n : Nat)

structure Saved where
  vlapic : Vlapic
  images : List Image

def Saved.init : Saved := ⟨vlapicReset, []⟩

def step (ops : Option (BitVec 8 → Bool → Bool)) (s : Saved) : Event → Saved
  | .write offset data => { s with vlapic := vlapicWrite s.vlapic offset data }
  | .setError mask lvtError =>
      { s with vlapic := (setError ops depth s.vlapic mask lvtError).getD s.vlapic }
  | .intrReady vector level =>
      { s with
        vlapic := ((setIntrReady ops depth s.vlapic vector level).map Prod.fst).getD s.vlapic }
  | .fireTimer => { s with vlapic := fireCounted ops s.vlapic .timer }
  | .fireCmci => { s with vlapic := fireCounted ops s.vlapic .cmci }
  | .trigger vector => { s with vlapic := triggerLvt ops s.vlapic vector }
  | .setApicbase enabled => { s with vlapic := { s.vlapic with apicbaseEnabled := enabled } }
  | .init => { s with vlapic := vlapicReset }
  | .save => { s with images := s.images ++ [vlapicSave s.vlapic] }
  | .restore n =>
      match s.images[n]? with
      | some i => { s with vlapic := vlapicRestore s.vlapic i }
      | none => s

/-- The entries agree with their copies, and an APIC that is disabled fires none of them. -/
structure Kept (ops : Option (BitVec 8 → Bool → Bool)) (v : Vlapic) : Prop where
  agree : v.lvtLast = v.lvt
  masked : svrEnabled v.svr = false → ∀ l, lvtMasked (v.lvt l) ∧ lvtMasked (v.lvtLast l)
  silent : svrEnabled v.svr = false → ∀ fuel l, fireLvt ops (fuel + 1) v l = some (v, false)

/-- With more calls than this inside one another the three functions return what they return. -/
structure Bounded (ops : Option (BitVec 8 → Bool → Bool)) (v : Vlapic) : Prop where
  error : ∀ mask lvtError, ∃ v', ∀ fuel, setError ops (fuel + depth) v mask lvtError = some v'
  fire : ∀ l, ∃ done, ∀ fuel, fireLvt ops (fuel + depth) v l = some done
  ready : ∀ vector level, ∃ done, ∀ fuel, setIntrReady ops (fuel + depth) v vector level = some done

/-- An APIC that is disabled has been seen enabled by the last write of its register, or has nothing
    to be masked. -/
def Seen (s : Saved) : Event → Prop
  | .write offset data => offset = apicOffsetSvr → svrEnabled (data.setWidth 32) = false →
      svrEnabled s.vlapic.svrLast = true ∨ ∀ l, lvtMasked (s.vlapic.lvt l)
  | _ => True

section

variable {ops : Option (BitVec 8 → Bool → Bool)} {v v' : Vlapic}

theorem ready_plain {vector : BitVec 8} (legal : ¬ vector < 16) (level : Bool) :
    ∃ done, ∀ fuel, setIntrReady ops (fuel + 1) v vector level = some done := by
  simp only [setIntrReady, if_neg legal, forall_const]
  split
  · exact ⟨_, rfl⟩
  · cases ops
    · exact ⟨_, rfl⟩
    · exact ⟨_, rfl⟩

theorem fire_after_error {k : Nat} {l : Lvt}
    (error : ∃ v', ∀ fuel, setError ops (fuel + k + 1) v apicEsrSendIllegalVector
      (decide (l = .error)) = some v') :
    ∃ done, ∀ fuel, fireLvt ops (fuel + k + 2) v l = some done := by
  obtain ⟨after, error⟩ := error
  by_cases legal : (v.lvtLast l).setWidth 8 < (16 : BitVec 8)
  · simp only [fireLvt, if_pos legal, error, forall_const]
    split_ifs <;> exact ⟨_, rfl⟩
  · obtain ⟨done, ready⟩ := @ready_plain ops v _ legal false
    have deeper : ∀ fuel, setIntrReady ops (fuel + k + 1) v _ false = some done :=
      fun fuel => ready (fuel + k)
    simp only [fireLvt, if_neg legal, deeper, forall_const]
    split_ifs <;> exact ⟨_, rfl⟩

theorem set_error_returns (mask : BitVec 32) (lvtError : Bool) :
    ∃ v', ∀ fuel, setError ops (fuel + 3) v mask lvtError = some v' := by
  cases lvtError with
  | true => exact ⟨_, fun _ => rfl⟩
  | false =>
    obtain ⟨done, fired⟩ := @fire_after_error ops { v with esrPending := v.esrPending ||| mask } 0
      .error ⟨_, fun _ => rfl⟩
    refine ⟨if done.2 then done.1.deliver (.counted .error) else done.1, fun fuel => ?_⟩
    rw [setError, if_neg Bool.false_ne_true, fired fuel]

theorem bounded (v : Vlapic) : Bounded ops v := by
  refine ⟨fun mask lvtError => ?_, fun l => ?_, fun vector level => ?_⟩
  · obtain ⟨after, returns⟩ := @set_error_returns ops v mask lvtError
    exact ⟨after, fun fuel => returns (fuel + 1)⟩
  · exact @fire_after_error ops v 2 l (set_error_returns _ _)
  · by_cases legal : vector < 16
    · obtain ⟨after, returns⟩ := @set_error_returns ops v apicEsrReceiveIllegalVector false
      have deeper : ∀ fuel, setError ops (fuel + 3) v apicEsrReceiveIllegalVector false =
        some after := returns
      simp only [depth, setIntrReady, if_pos legal, deeper, forall_const]
      split_ifs <;> exact ⟨_, rfl⟩
    · obtain ⟨done, ready⟩ := @ready_plain ops v vector legal level
      exact ⟨done, fun fuel => ready (fuel + 3)⟩

/-- What the three functions leave as it was. -/
structure SameRegs (v v' : Vlapic) : Prop where
  lvt : v'.lvt = v.lvt
  svr : v'.svr = v.svr
  lvtLast : v'.lvtLast = v.lvtLast

theorem SameRegs.trans {v'' : Vlapic} (first : SameRegs v v') (second : SameRegs v' v'') :
    SameRegs v v'' :=
  ⟨second.lvt.trans first.lvt, second.svr.trans first.svr, second.lvtLast.trans first.lvtLast⟩

theorem recursion_keeps (fuel : Nat) :
    (∀ v mask lvtError v', setError ops fuel v mask lvtError = some v' → SameRegs v v') ∧
      (∀ v l done, fireLvt ops fuel v l = some done → SameRegs v done.1) ∧
      ∀ v vector level done, setIntrReady ops fuel v vector level = some done →
        SameRegs v done.1 := by
  induction fuel with
  | zero => exact ⟨nofun, nofun, nofun⟩
  | succ fuel ih =>
    obtain ⟨error, fire, ready⟩ := ih
    refine ⟨fun v mask lvtError v' ran => ?_, fun v l done ran => ?_, fun v vector level done ran => ?_⟩
    · rw [setError] at ran
      split at ran
      · cases ran
        exact ⟨rfl, rfl, rfl⟩
      · split at ran
        · cases ran
        · next fired shot =>
          cases ran
          have same := fire _ _ _ shot
          split
          · exact ⟨same.lvt, same.svr, same.lvtLast⟩
          · exact ⟨same.lvt, same.svr, same.lvtLast⟩
    · rw [fireLvt] at ran
      split_ifs at ran
      · cases ran
        exact ⟨rfl, rfl, rfl⟩
      · split at ran
        · cases ran
        · next set =>
          cases ran
          exact error _ _ _ _ set
      · split at ran
        · cases ran
        · next set =>
          cases ran
          have same := ready _ _ _ _ set
          split
          · exact ⟨same.lvt, same.svr, same.lvtLast⟩
          · exact same
      all_goals
        cases ran
        exact ⟨rfl, rfl, rfl⟩
    · unfold setIntrReady at ran
      split_ifs at ran
      · cases ran
        exact ⟨rfl, rfl, rfl⟩
      · split at ran
        · cases ran
        · next set =>
          cases ran
          exact error _ _ _ _ set
      · split at ran
        all_goals
          cases ran
          exact ⟨rfl, rfl, rfl⟩

end
section

structure Held (lvt : Lvt → BitVec 32) (svr : BitVec 32) (lvtLast : Lvt → BitVec 32) : Prop where
  agree : lvtLast = lvt
  masked : svrEnabled svr = false → ∀ l, lvtMasked (lvt l)

def Vlapic.Held (v : Vlapic) : Prop := VmmLvt.Held v.lvt v.svr v.lvtLast

variable {ops : Option (BitVec 8 → Bool → Bool)} {v v' : Vlapic} {l : Lvt}

theorem same_held (same : SameRegs v v') (held : v.Held) : v'.Held := by
  unfold Vlapic.Held
  rw [same.lvt, same.svr, same.lvtLast]
  exact held

theorem held_of_kept (kept : Kept ops v) : v.Held :=
  ⟨kept.agree, fun disabled l => (kept.masked disabled l).1⟩

theorem kept_of_held (held : v.Held) : Kept ops v := by
  have copies : svrEnabled v.svr = false → ∀ l, lvtMasked (v.lvtLast l) := by
    rw [held.agree]
    exact held.masked
  refine ⟨held.agree, fun disabled l => ⟨held.masked disabled l, copies disabled l⟩,
    fun disabled fuel l => ?_⟩
  rw [fireLvt, if_pos (copies disabled l)]

@[simp] theorem set_lvt_self (v : Vlapic) (l : Lvt) (reg : BitVec 32) :
    (v.setLvt l reg).lvt l = reg := update_self ..

theorem set_lvt_other {l' : Lvt} (other : l' ≠ l) (reg : BitVec 32) :
    (v.setLvt l reg).lvt l' = v.lvt l' := update_of_ne other ..

@[simp] theorem set_lvt_last (v : Vlapic) (l : Lvt) (reg : BitVec 32) :
    (v.setLvt l reg).lvtLast = v.lvtLast := rfl

theorem writable_masked (reg : BitVec 32) : lvtMasked (reg &&& writable l) = lvtMasked reg := by
  have bit : (writable l).getLsbD 16 = true := by cases l <;> rfl
  rw [lvtMasked, BitVec.getLsbD_and, bit, Bool.and_true, lvtMasked]

theorem or_masked (reg : BitVec 32) : lvtMasked (reg ||| apicLvtM) = true := by
  have bit : apicLvtM.getLsbD 16 = true := by rfl
  rw [lvtMasked, BitVec.getLsbD_or, bit, Bool.or_true]

theorem write_agrees (same : ∀ l', l' ≠ l → v.lvtLast l' = v.lvt l') :
    (lvtWriteHandler v l).lvtLast = (lvtWriteHandler v l).lvt := by
  funext l'
  by_cases here : l' = l
  · subst here
    simp only [lvtWriteHandler, update_self]
  · simp only [lvtWriteHandler, update_of_ne here, same l' here]

theorem write_masked {l' : Lvt} (masked : lvtMasked (v.lvt l')) :
    lvtMasked ((lvtWriteHandler v l).lvt l') := by
  by_cases here : l' = l
  · subst here
    simp only [lvtWriteHandler, update_self, writable_masked]
    split
    · exact masked
    · exact or_masked _
  · simpa only [lvtWriteHandler, update_of_ne here] using masked

@[simp] theorem set_lvt_svr (v : Vlapic) (l : Lvt) (reg : BitVec 32) :
    (v.setLvt l reg).svr = v.svr := rfl

theorem write_held (held : v.Held) (data : BitVec 32) :
    (lvtWriteHandler (v.setLvt l data) l).Held := by
  refine ⟨write_agrees fun l' other => ?_, fun disabled l' => ?_⟩
  · rw [set_lvt_last, held.agree, set_lvt_other other]
  · by_cases here : l' = l
    · subst here
      have off : svrEnabled v.svr = false := disabled
      simp only [lvtWriteHandler, update_self, writable_masked, set_lvt_svr, off,
        Bool.false_eq_true, if_false, or_masked]
    · apply write_masked
      rw [set_lvt_other here]
      exact held.masked disabled l'

theorem mask_lvt_agrees (agree : v.lvtLast = v.lvt) :
    (maskLvt v l).lvtLast = (maskLvt v l).lvt := by
  refine write_agrees fun l' other => ?_
  rw [set_lvt_last, agree, set_lvt_other other]

theorem mask_lvt_masked {l' : Lvt} (masked : l' = l ∨ lvtMasked (v.lvt l')) :
    lvtMasked ((maskLvt v l).lvt l') := by
  apply write_masked
  by_cases here : l' = l
  · rw [here, set_lvt_self]
    exact or_masked _
  · rw [set_lvt_other here]
    exact masked.resolve_left here

theorem mask_all (ls : List Lvt) : ∀ v : Vlapic, v.lvtLast = v.lvt →
    (ls.foldl maskLvt v).lvtLast = (ls.foldl maskLvt v).lvt ∧
      ∀ l, l ∈ ls ∨ lvtMasked (v.lvt l) → lvtMasked ((ls.foldl maskLvt v).lvt l) := by
  induction ls with
  | nil =>
    intro v agree
    exact ⟨agree, fun l masked => masked.resolve_left List.not_mem_nil⟩
  | cons first rest ih =>
    intro v agree
    obtain ⟨agrees, masks⟩ := ih (maskLvt v first) (mask_lvt_agrees agree)
    refine ⟨agrees, fun l masked => masks l ?_⟩
    rcases masked with member | masked
    · rcases List.mem_cons.mp member with rfl | later
      · exact .inr (mask_lvt_masked (.inl rfl))
      · exact .inl later
    · exact .inr (mask_lvt_masked (.inr masked))

theorem mask_lvts_held (agree : v.lvtLast = v.lvt) : (maskLvts v).Held := by
  obtain ⟨agrees, masks⟩ := mask_all [.cmci, .timer, .thermal, .pmc, .lint0, .lint1, .error] v agree
  exact ⟨agrees, fun _ l => masks l (.inl (by cases l <;> decide))⟩

theorem reset_held : vlapicReset.Held := mask_lvts_held rfl

theorem svr_write_iff (agree : v.lvtLast = v.lvt) :
    (svrWriteHandler v).Held ↔ (svrEnabled v.svr = false →
      svrEnabled v.svrLast = true ∨ ∀ l, lvtMasked (v.lvt l)) := by
  have changed : (v.svrLast ^^^ v.svr).getLsbD apicSvrEnable =
      (svrEnabled v.svrLast ^^ svrEnabled v.svr) := BitVec.getLsbD_xor
  unfold svrWriteHandler
  dsimp only
  rw [changed]
  by_cases enabled : svrEnabled v.svr = true
  · rw [if_neg (by simp [enabled])]
    refine ⟨fun _ disabled => ?_, fun _ => ⟨agree, fun disabled => ?_⟩⟩
    · simp [enabled] at disabled
    · simp [enabled] at disabled
  have disabled := Bool.eq_false_iff.mpr enabled
  by_cases last : svrEnabled v.svrLast = true
  · rw [if_pos (by simp [disabled, last])]
    exact ⟨fun _ _ => .inl last, fun _ => mask_lvts_held agree⟩
  · rw [if_neg (by simp [disabled, last])]
    exact ⟨fun held _ => .inr (held.masked disabled),
      fun seen => ⟨agree, fun _ => (seen disabled).resolve_left last⟩⟩

theorem vlapic_write_iff (held : v.Held) (offset : Nat) (data : BitVec 64) :
    (vlapicWrite v offset data).Held ↔ (offset = apicOffsetSvr →
      svrEnabled (data.setWidth 32) = false →
        svrEnabled v.svrLast = true ∨ ∀ l, lvtMasked (v.lvt l)) := by
  unfold vlapicWrite
  by_cases svr : offset = apicOffsetSvr
  · rw [if_pos svr, @svr_write_iff { v with svr := data.setWidth 32 } held.agree]
    exact ⟨fun seen _ => seen, fun seen => seen svr⟩
  · rw [if_neg svr]
    refine ⟨fun _ here => absurd here svr, fun _ => ?_⟩
    split
    · exact held
    · split
      · exact write_held held _
      · exact held

theorem fire_counted_same (v : Vlapic) (l : Lvt) : SameRegs v (fireCounted ops v l) := by
  unfold fireCounted
  split
  · next shot => exact ((recursion_keeps depth).2.1 _ _ _ shot).trans ⟨rfl, rfl, rfl⟩
  · next shot => exact (recursion_keeps depth).2.1 _ _ _ shot
  · exact ⟨rfl, rfl, rfl⟩

theorem trigger_same (v : Vlapic) (vector : Nat) : SameRegs v (triggerLvt ops v vector) := by
  unfold triggerLvt
  split
  · split <;> exact ⟨rfl, rfl, rfl⟩
  · split
    · exact fire_counted_same v _
    · exact ⟨rfl, rfl, rfl⟩

structure AllHeld (s : Saved) : Prop where
  now : s.vlapic.Held
  images : ∀ i ∈ s.images, Held i.lvt i.svr i.lvtLast

theorem step_held {s : Saved} (held : AllHeld s) (e : Event) :
    ((step ops s e).vlapic.Held ↔ Seen s e) ∧
      ∀ i ∈ (step ops s e).images, Held i.lvt i.svr i.lvtLast := by
  cases e with
  | write offset data => exact ⟨vlapic_write_iff held.now offset data, held.images⟩
  | setError mask lvtError =>
    refine ⟨iff_of_true ?_ trivial, held.images⟩
    obtain ⟨after, returns⟩ := (@bounded ops s.vlapic).error mask lvtError
    have same := (recursion_keeps depth).1 _ _ _ _ (returns 0)
    simp only [step]
    rw [show depth = 0 + depth from rfl, returns 0]
    exact same_held same held.now
  | intrReady vector level =>
    refine ⟨iff_of_true ?_ trivial, held.images⟩
    obtain ⟨done, returns⟩ := (@bounded ops s.vlapic).ready vector level
    have same := (recursion_keeps depth).2.2 _ _ _ _ (returns 0)
    simp only [step]
    rw [show depth = 0 + depth from rfl, returns 0]
    exact same_held same held.now
  | fireTimer => exact ⟨iff_of_true (same_held (fire_counted_same _ _) held.now) trivial, held.images⟩
  | fireCmci => exact ⟨iff_of_true (same_held (fire_counted_same _ _) held.now) trivial, held.images⟩
  | trigger vector =>
    exact ⟨iff_of_true (same_held (trigger_same _ vector) held.now) trivial, held.images⟩
  | setApicbase enabled => exact ⟨iff_of_true held.now trivial, held.images⟩
  | init => exact ⟨iff_of_true reset_held trivial, held.images⟩
  | save =>
    refine ⟨iff_of_true held.now trivial, fun i member => ?_⟩
    rcases List.mem_append.mp member with old | new
    · exact held.images i old
    · rw [List.mem_singleton.mp new]
      exact held.now
  | restore n =>
    simp only [step]
    cases found : s.images[n]? with
    | none => exact ⟨iff_of_true held.now trivial, held.images⟩
    | some i => exact ⟨iff_of_true (held.images i (List.mem_of_getElem? found)) trivial, held.images⟩

/-- Every call of the three functions returns. The table is masked in every state of a run in which
    the APIC is disabled just when each write that disables it finds it enabled in svr_last, or the
    table masked. -/
theorem lvt_masked_iff (events : List Event) : ((∀ v, Bounded ops v) ∧ Kept ops Saved.init.vlapic ∧
      Along (step ops) (fun s e => Kept ops (step ops s e).vlapic) .init events) ↔
        Along (step ops) Seen .init events := by
  have start : AllHeld .init := ⟨reset_held, nofun⟩
  have agree : ∀ s e, AllHeld s → (Kept ops (step ops s e).vlapic ↔ Seen s e) := fun s e held =>
    ⟨fun kept => (step_held held e).1.mp (held_of_kept kept),
      fun seen => kept_of_held ((step_held held e).1.mpr seen)⟩
  have keeps : ∀ s e, AllHeld s → Seen s e → AllHeld (step ops s e) := fun s e held seen =>
    ⟨(step_held held e).1.mpr seen, (step_held held e).2⟩
  have runs := along_iff_of_invariant keeps agree events .init start
  rw [← runs]
  exact ⟨fun all => all.2.2, fun all => ⟨bounded, kept_of_held reset_held, all⟩⟩

def disabledAfterRestore : List Event :=
  [.write 0xf0 0x1ff, .write 0x350 0x700, .save, .init, .restore 0, .write 0xf0 0xff]

theorem restored_unmasked : ¬ ∀ ops events, Kept ops Saved.init.vlapic ∧
    Along (step ops) (fun s e => Kept ops (step ops s e).vlapic) .init events := by
  intro always
  obtain ⟨-, -, -, -, -, -, kept, -⟩ := always none disabledAfterRestore
  exact absurd (kept.masked (by decide) .lint0).1 (by decide)

end
end VmmLvt
