import Bhyve.Vmm.Vlapic

/-!
The stack of vectors in service: the entries above the bottom are the vectors whose bit is set in
the ISR, in order of their priority class.
-/
namespace VmmVlapic
open BitRegisters StepRuns Function

structure InService (s : Vlapic) : Prop where
  bottom : s.isrvecStk 0 = 0
  increasing : ∀ i < s.isrvecStkTop,
    prio (s.isrvecStk i).toNat < prio (s.isrvecStk (i + 1)).toNat
  listed : ∀ v < 256, bit s.isr v = true ↔
    ∃ i, 1 ≤ i ∧ i ≤ s.isrvecStkTop ∧ (s.isrvecStk i).toNat = v

theorem prio_eq (x : Nat) : prio x = x / 16 := Nat.shiftRight_eq_div_pow x 4

theorem lt_of_prio_lt {x y : Nat} (lower : prio x < prio y) : x < y := by
  rw [prio_eq, prio_eq] at lower
  omega

section
variable {s : Vlapic}

theorem stack_increasing (kept : InService s) {i : Nat} (j : Nat) : i + (j + 1) ≤ s.isrvecStkTop →
      prio (s.isrvecStk i).toNat < prio (s.isrvecStk (i + (j + 1))).toNat := by
  induction j with
  | zero => exact kept.increasing i
  | succ j ih =>
    intro within
    exact Nat.lt_trans (ih (Nat.le_of_succ_le within)) (kept.increasing (i + (j + 1)) within)

theorem stack_ordered (kept : InService s) {i j : Nat} (before : i < j)
    (within : j ≤ s.isrvecStkTop) : (s.isrvecStk i).toNat < (s.isrvecStk j).toNat := by
  obtain ⟨k, rfl⟩ := Nat.exists_eq_add_of_lt before
  exact lt_of_prio_lt (stack_increasing kept k within)

theorem class_of_entry (kept : InService s) (i : Nat) (within : i ≤ s.isrvecStkTop) :
    i ≤ prio (s.isrvecStk i).toNat := by
  induction i with
  | zero => exact Nat.zero_le _
  | succ i ih =>
    exact Nat.lt_of_le_of_lt (ih (Nat.le_of_succ_le within)) (kept.increasing i within)

theorem class_bound (x : BitVec 8) : prio x.toNat < 16 := by
  rw [prio_eq]
  exact Nat.div_lt_of_lt_mul x.isLt

theorem stack_not_full (kept : InService s) : s.isrvecStkTop < 16 :=
  Nat.lt_of_le_of_lt (class_of_entry kept _ (Nat.le_refl _)) (class_bound _)

theorem check_priorities_ok (kept : InService s) (count : Nat) :
    ∀ (i : Nat) (lastprio : Int), i + count = s.isrvecStkTop + 1 →
      (count ≠ 0 → lastprio < prio (s.isrvecStk i).toNat) →
      checkPriorities s.isrvecStk count i lastprio = .ok () := by
  induction count with
  | zero => intro i lastprio _ _; rfl
  | succ count ih =>
    intro i lastprio reach above
    unfold checkPriorities
    rw [if_neg (Int.not_le.mpr (above (Nat.succ_ne_zero count)))]
    refine ih (i + 1) _ (by omega) fun more => ?_
    exact Int.ofNat_lt.mpr (kept.increasing i (by omega))

theorem check_in_service_ok (kept : InService s) (count : Nat) :
    ∀ vector i : Nat, vector + count = 256 → 1 ≤ i →
      (∀ j, 1 ≤ j → j < i → (s.isrvecStk j).toNat < vector) →
      (∀ j, i ≤ j → j ≤ s.isrvecStkTop → vector ≤ (s.isrvecStk j).toNat) →
      checkInService s.isr s.isrvecStk s.isrvecStkTop count vector i = .ok () := by
  induction count with
  | zero => intro vector i _ _ _ _; rfl
  | succ count ih =>
    intro vector i reach started below above
    have listed := kept.listed vector (by omega)
    unfold checkInService
    by_cases set_ : bit s.isr vector = true
    · obtain ⟨j, positive, within, same⟩ := listed.mp set_
      have here : j = i := by
        refine Nat.le_antisymm (Nat.not_lt.mp fun later => ?_) (Nat.not_lt.mp fun earlier => ?_)
        · have first := above i (Nat.le_refl i) (Nat.le_of_lt (Nat.lt_of_lt_of_le later within))
          have lower := stack_ordered kept later within
          omega
        · have lower := below j positive earlier
          omega
      subst here
      rw [if_pos set_, if_neg (by omega)]
      refine ih (vector + 1) (j + 1) (by omega) (by omega) (fun k first earlier => ?_) fun k later last => ?_
      · by_cases before : k < j
        · exact Nat.lt_succ_of_lt (below k first before)
        · have equal : k = j := by omega
          rw [equal, same]
          exact Nat.lt_succ_self vector
      · rw [← same]
        exact stack_ordered kept later last
    · rw [if_neg set_]
      refine ih (vector + 1) i (by omega) started (fun k first earlier => ?_) fun k later last => ?_
      · exact Nat.lt_succ_of_lt (below k first earlier)
      · refine Nat.lt_of_le_of_ne (above k later last) fun same => set_ (listed.mpr ?_)
        exact ⟨k, Nat.le_trans started later, last, same.symm⟩

def currentPpr (s : Vlapic) : BitVec 8 :=
  let isrvec := s.isrvecStk s.isrvecStkTop
  if prio isrvec.toNat ≤ prio s.tpr.toNat then s.tpr else isrvec &&& 0xf0

theorem update_ppr_ok (kept : InService s) : updatePpr s = .ok { s with ppr := currentPpr s } := by
  have uncorrupted : ¬ (s.isrvecStkTop = 0 ∧ s.isrvecStk s.isrvecStkTop ≠ 0) := by
    rintro ⟨empty, nonzero⟩
    rw [empty] at nonzero
    exact nonzero kept.bottom
  have priorities := check_priorities_ok kept s.isrvecStkTop 1 (-1) (Nat.add_comm ..)
    fun _ => Int.lt_of_lt_of_le (by decide) (Int.natCast_nonneg _)
  have bits := check_in_service_ok kept 256 0 1 rfl (Nat.le_refl 1)
    (fun j positive below => absurd below (Nat.not_lt.mpr positive)) fun j _ _ => Nat.zero_le _
  simp only [updatePpr, if_neg uncorrupted, priorities, bits]
  rfl

theorem in_service_congr {t : Vlapic} (kept : InService s) (isr : t.isr = s.isr)
    (stk : t.isrvecStk = s.isrvecStk) (top : t.isrvecStkTop = s.isrvecStkTop) : InService t := by
  obtain ⟨bottom, increasing, listed⟩ := kept
  constructor
  · rw [stk]
    exact bottom
  · rw [stk, top]
    exact increasing
  · rw [isr, stk, top]
    exact listed

def popped (s : Vlapic) : Vlapic :=
  { s with isr := clearBit s.isr (s.isrvecStk s.isrvecStkTop).toNat,
           isrvecStkTop := s.isrvecStkTop - 1 }

theorem bit_popped (v : Nat) : bit (popped s).isr v =
      (bit s.isr v && !decide ((s.isrvecStk s.isrvecStkTop).toNat = v)) :=
  bit_clear_bit (by decide) ..

theorem popped_in_service (kept : InService s) (some_ : 0 < s.isrvecStkTop) :
    InService (popped s) := by
  constructor
  · exact kept.bottom
  · intro i below
    exact kept.increasing i (Nat.lt_of_lt_of_le below (Nat.sub_le ..))
  · intro v bound
    have listed := kept.listed v bound
    rw [bit_popped, Bool.and_eq_true, Bool.not_eq_true', decide_eq_false_iff_not, listed]
    constructor
    · rintro ⟨⟨i, positive, within, same⟩, apart⟩
      have below : i ≠ s.isrvecStkTop := by
        rintro rfl
        exact apart same
      exact ⟨i, positive, Nat.le_sub_one_of_lt (Nat.lt_of_le_of_ne within below), same⟩
    · rintro ⟨i, positive, within, same⟩
      have below : i < s.isrvecStkTop := Nat.lt_of_le_sub_one some_ within
      refine ⟨⟨i, positive, Nat.le_of_lt below, same⟩, fun equal => ?_⟩
      have lower := stack_ordered kept below (Nat.le_refl _)
      have other : (s.isrvecStk i).toNat = v := same
      omega

theorem highest_in_service (kept : InService s) : (s.isrvecStkTop = 0 ∧ highest s.isr 8 = none) ∨
      (0 < s.isrvecStkTop ∧ highest s.isr 8 = some (s.isrvecStk s.isrvecStkTop).toNat) := by
  cases found : highest s.isr 8 with
  | none =>
    refine .inl ⟨Nat.eq_zero_of_not_pos fun some_ => ?_, rfl⟩
    have empty := highest_none 8 found _ (s.isrvecStk s.isrvecStkTop).isLt
    have listed := (kept.listed _ (s.isrvecStk s.isrvecStkTop).isLt).mpr
      ⟨s.isrvecStkTop, some_, Nat.le_refl _, rfl⟩
    rw [listed] at empty
    exact absurd empty.symm Bool.false_ne_true
  | some v =>
    obtain ⟨bound, set_, above⟩ := highest_some 8 found
    obtain ⟨i, positive, within, same⟩ := (kept.listed v bound).mp set_
    refine .inr ⟨Nat.lt_of_lt_of_le positive within, congrArg some ?_⟩
    by_cases last : i = s.isrvecStkTop
    · rw [← last, same]
    · have below : i < s.isrvecStkTop := Nat.lt_of_le_of_ne within last
      have lower := stack_ordered kept below (Nat.le_refl _)
      have top := (kept.listed _ (s.isrvecStk s.isrvecStkTop).isLt).mpr
        ⟨s.isrvecStkTop, Nat.le_trans positive within, Nat.le_refl _, rfl⟩
      have clear := above _ (by rw [← same]; exact lower) (s.isrvecStk s.isrvecStkTop).isLt
      rw [top] at clear
      exact absurd clear.symm Bool.false_ne_true

theorem process_eoi_ok (kept : InService s) : (s.isrvecStkTop = 0 ∧ processEoi s = .ok (none, s)) ∨
      (0 < s.isrvecStkTop ∧ ∃ eoi,
        processEoi s = .ok (eoi, { popped s with ppr := currentPpr (popped s) })) := by
  obtain ⟨empty, none_⟩ | ⟨some_, found⟩ := highest_in_service kept
  · refine .inl ⟨empty, ?_⟩
    rw [processEoi, none_]
  · refine .inr ⟨some_, ?_⟩
    have updated := update_ppr_ok (popped_in_service kept some_)
    unfold popped at updated
    simp only [processEoi, found, if_neg (Nat.ne_of_gt some_), updated]
    exact ⟨_, rfl⟩

theorem set_tpr_ok (kept : InService s) (val : BitVec 8) :
    ∃ t, setTpr s val = .ok t ∧ InService t := by
  unfold setTpr
  split
  · have changed : InService { s with tpr := val } := in_service_congr kept rfl rfl rfl
    exact ⟨_, update_ppr_ok changed, in_service_congr kept rfl rfl rfl⟩
  · exact ⟨s, rfl, kept⟩

theorem set_cr8_ok (kept : InService s) (val : BitVec 64) :
    ∃ fault t, setCr8 s val = .ok (fault, t) ∧ InService t := by
  unfold setCr8
  split
  · exact ⟨true, s, rfl, kept⟩
  · obtain ⟨t, done, kept'⟩ := set_tpr_ok kept ((val <<< 4).setWidth 8)
    rw [done]
    exact ⟨false, t, rfl, kept'⟩

theorem current_ppr_class : prio (s.isrvecStk s.isrvecStkTop).toNat ≤ prio (currentPpr s).toNat := by
  unfold currentPpr
  simp only
  split
  · assumption
  · generalize s.isrvecStk s.isrvecStkTop = isrvec
    revert isrvec
    decide

def Acceptable (s : Vlapic) (vector : Nat) : Prop :=
  vector < 256 ∧ prio (s.isrvecStk s.isrvecStkTop).toNat < prio vector

def deliverable (s : Vlapic) : Option Nat :=
  match highest s.irr 8 with
  | none => none
  | some vector => if prio (currentPpr s).toNat < prio vector then some vector else none

theorem pending_intr_eq (kept : InService s) :
    pendingIntr s = .ok (deliverable s, { s with ppr := currentPpr s }) := by
  unfold pendingIntr deliverable
  rw [update_ppr_ok kept]
  simp only
  cases highest s.irr 8 with
  | none => rfl
  | some vector => rfl

theorem deliverable_acceptable {vector : Nat} (next : deliverable s = some vector) :
    Acceptable s vector ∧ ∀ n, vector < n → n < 256 → bit s.irr n = false := by
  unfold deliverable at next
  cases found : highest s.irr 8 with
  | none =>
    rw [found] at next
    cases next
  | some v =>
    rw [found] at next
    obtain ⟨bound, -, above⟩ := highest_some 8 found
    simp only at next
    split at next
    · next higher =>
      obtain rfl := Option.some.inj next
      exact ⟨⟨bound, Nat.lt_of_le_of_lt current_ppr_class higher⟩, above⟩
    · cases next

def pushed (s : Vlapic) (vector : Nat) : Vlapic :=
  { s with
    irr := clearBit s.irr vector
    isr := setBit s.isr vector
    isrvecStkTop := s.isrvecStkTop + 1
    isrvecStk := update s.isrvecStk (s.isrvecStkTop + 1) (BitVec.ofNat 8 vector) }

theorem intr_accepted_ok (kept : InService s) {vector : Nat} (acceptable : Acceptable s vector) :
    intrAccepted s vector = .ok (pushed s vector) ∧ InService (pushed s vector) := by
  obtain ⟨bound, higher⟩ := acceptable
  have room : ¬ isrvecStkSize ≤ s.isrvecStkTop + 1 :=
    Nat.not_le.mpr (Nat.succ_lt_succ (stack_not_full kept))
  have stored : (BitVec.ofNat 8 vector).toNat = vector := Nat.mod_eq_of_lt bound
  have old : ∀ i ≤ s.isrvecStkTop, i ≠ s.isrvecStkTop + 1 :=
    fun i within => Nat.ne_of_lt (Nat.lt_succ_of_le within)
  refine ⟨if_neg room, ?_, ?_, ?_⟩
  · simp only [pushed]
    rw [update_of_ne (old 0 (Nat.zero_le _))]
    exact kept.bottom
  · intro i within
    have low : i ≤ s.isrvecStkTop := Nat.le_of_lt_succ within
    simp only [pushed]
    rw [update_of_ne (old i low)]
    by_cases last : i = s.isrvecStkTop
    · rw [last, update_self, stored]
      exact higher
    · have below : i < s.isrvecStkTop := Nat.lt_of_le_of_ne low last
      rw [update_of_ne (old (i + 1) below)]
      exact kept.increasing i below
  · intro v limit
    simp only [pushed]
    rw [bit_set_bit (by decide), Bool.or_eq_true, decide_eq_true_eq, kept.listed v limit]
    constructor
    · rintro (rfl | ⟨i, positive, within, same⟩)
      · refine ⟨s.isrvecStkTop + 1, Nat.le_add_left .., Nat.le_refl _, ?_⟩
        rw [update_self, stored]
      · refine ⟨i, positive, Nat.le_succ_of_le within, ?_⟩
        rw [update_of_ne (old i within), same]
    · rintro ⟨i, positive, within, same⟩
      by_cases last : i = s.isrvecStkTop + 1
      · rw [last, update_self, stored] at same
        exact .inl same
      · rw [update_of_ne last] at same
        exact .inr ⟨i, positive, Nat.le_of_lt_succ (Nat.lt_of_le_of_ne within last), same⟩

theorem pushed_quiet {vector : Nat} (next : deliverable s = some vector) :
    deliverable (pushed s vector) = none := by
  obtain ⟨⟨bound, -⟩, above⟩ := deliverable_acceptable next
  have top : ((pushed s vector).isrvecStk (pushed s vector).isrvecStkTop).toNat = vector := by
    simp only [pushed]
    rw [update_self]
    exact Nat.mod_eq_of_lt bound
  unfold deliverable
  cases found : highest (pushed s vector).irr 8 with
  | none => rfl
  | some u =>
    obtain ⟨limit, set_, -⟩ := highest_some 8 found
    have remains : bit (clearBit s.irr vector) u = true := set_
    rw [bit_clear_bit (by decide), Bool.and_eq_true] at remains
    have lower : u ≤ vector := by
      refine Nat.not_lt.mp fun higher => ?_
      rw [above u higher limit] at remains
      exact Bool.false_ne_true remains.1
    have served := @current_ppr_class (pushed s vector)
    rw [top] at served
    simp only
    refine if_neg (Nat.not_lt.mpr (Nat.le_trans ?_ served))
    rw [prio_eq, prio_eq]
    exact Nat.div_le_div_right lower

def SameService (s t : Vlapic) : Prop :=
  t.isr = s.isr ∧ t.isrvecStk = s.isrvecStk ∧ t.isrvecStkTop = s.isrvecStkTop

theorem same_in_service {t : Vlapic} (same : SameService s t) (kept : InService s) : InService t :=
  in_service_congr kept same.1 same.2.1 same.2.2

theorem write_svr_service (data : BitVec 32) : SameService s (writeSvr s data) := by
  unfold writeSvr svrWriteHandler
  simp only
  split
  · exact ⟨rfl, rfl, rfl⟩
  · exact ⟨rfl, rfl, rfl⟩

theorem set_error_service (mask : BitVec 32) : SameService s (setError s mask) := by
  unfold setError fireLvtError
  simp only
  split
  · exact ⟨rfl, rfl, rfl⟩
  · split
    · exact ⟨rfl, rfl, rfl⟩
    · split
      · exact ⟨rfl, rfl, rfl⟩
      · exact ⟨rfl, rfl, rfl⟩

theorem set_intr_ready_service (vector : Int) (level : Bool) :
    (∃ ready t, setIntrReady s vector level = .ok (ready, t) ∧ SameService s t ∧
        (ready = false → t = s)) ∨
      (¬ (0 ≤ vector ∧ vector < 256) ∧
        setIntrReady s vector level = .error (.invalidVector vector)) := by
  unfold setIntrReady
  split
  · next invalid => exact .inr ⟨invalid, rfl⟩
  · refine .inl ?_
    split
    · exact ⟨false, s, rfl, ⟨rfl, rfl, rfl⟩, fun _ => rfl⟩
    · split
      · exact ⟨true, _, rfl, set_error_service _, (by simp)⟩
      · exact ⟨true, _, rfl, ⟨rfl, rfl, rfl⟩, (by simp)⟩

end

/-- The invariant of a run: a vector at hand may still be pushed. -/
structure Sound (a : Attached) : Prop where
  kept : InService a.vlapic
  returned : ∀ v, a.returned = some v → Acceptable a.vlapic v

theorem sound_alone {s : Vlapic} (kept : InService s) : Sound ⟨s, none⟩ := ⟨kept, (by simp)⟩

theorem reset_sound : Sound ⟨reset, none⟩ := by
  refine sound_alone ⟨rfl, fun i below => absurd below (Nat.not_lt_zero i), fun v _ => ?_⟩
  have empty : bit reset.isr v = false := BitVec.getLsbD_zero
  rw [empty]
  constructor
  · exact fun set_ => absurd set_ Bool.false_ne_true
  · rintro ⟨i, positive, within, -⟩
    exact absurd (Nat.le_trans positive within) (Nat.not_succ_le_zero 0)

theorem step_sound {a : Attached} (sound : Sound a) (e : Event) :
    (∃ a', step a e = .ok a' ∧ Sound a') ∨
      ∃ vector level, e = .intrReady vector level ∧ ¬ (0 ≤ vector ∧ vector < 256) ∧
        step a e = .error (.invalidVector vector) := by
  obtain ⟨kept, returned⟩ := sound
  cases e with
  | intrReady vector level =>
    obtain ⟨ready, t, done, same, -⟩ | ⟨invalid, fails⟩ :=
      @set_intr_ready_service a.vlapic vector level
    · refine .inl ⟨⟨t, a.returned⟩, by rw [step, done]; rfl, same_in_service same kept, ?_⟩
      obtain ⟨-, stk, top⟩ := same
      intro v some_
      unfold Acceptable
      rw [stk, top]
      exact returned v some_
    · exact .inr ⟨vector, level, rfl, invalid, by rw [step, fails]; rfl⟩
  | writeTpr data =>
    obtain ⟨t, done, kept'⟩ := set_tpr_ok kept (data.setWidth 8)
    exact .inl ⟨⟨t, none⟩, by rw [step, done]; rfl, sound_alone kept'⟩
  | writeCr8 val =>
    obtain ⟨fault, t, done, kept'⟩ := set_cr8_ok kept val
    exact .inl ⟨⟨t, none⟩, by rw [step, done]; rfl, sound_alone kept'⟩
  | shadowTpr val =>
    have changed : InService { a.vlapic with tpr := val } := in_service_congr kept rfl rfl rfl
    refine .inl ⟨⟨_, none⟩, by rw [step, syncTpr, update_ppr_ok changed]; rfl, sound_alone ?_⟩
    exact in_service_congr kept rfl rfl rfl
  | writeEoi =>
    obtain ⟨-, done⟩ | ⟨some_, eoi, done⟩ := process_eoi_ok kept
    · exact .inl ⟨⟨a.vlapic, none⟩, by rw [step, done]; rfl, sound_alone kept⟩
    · refine .inl ⟨⟨_, none⟩, by rw [step, done]; rfl, sound_alone ?_⟩
      exact in_service_congr (popped_in_service kept some_) rfl rfl rfl
  | writeSvr data =>
    exact .inl ⟨_, rfl, sound_alone (same_in_service (write_svr_service data) kept)⟩
  | writeLvtError data => exact .inl ⟨_, rfl, sound_alone (in_service_congr kept rfl rfl rfl)⟩
  | setTmr vector level => exact .inl ⟨_, rfl, sound_alone (in_service_congr kept rfl rfl rfl)⟩
  | pendingIntr =>
    refine .inl ⟨⟨{ a.vlapic with ppr := currentPpr a.vlapic }, deliverable a.vlapic⟩,
      by rw [step, pending_intr_eq kept]; rfl, in_service_congr kept rfl rfl rfl, ?_⟩
    exact fun v next => (deliverable_acceptable next).1
  | accept =>
    unfold step
    cases at_hand : a.returned with
    | none => exact .inl ⟨a, rfl, kept, returned⟩
    | some v =>
      obtain ⟨done, kept'⟩ := intr_accepted_ok kept (returned v at_hand)
      exact .inl ⟨⟨pushed a.vlapic v, none⟩, by simp only [done]; rfl, sound_alone kept'⟩

/-- An EOI takes the highest vector in service off the stack, and changes nothing when there
    is none. -/
def EoiPopsHighest (s : Vlapic) : Prop :=
  (s.isrvecStkTop = 0 ∧ (∀ v < 256, bit s.isr v = false) ∧ processEoi s = .ok (none, s)) ∨
    (0 < s.isrvecStkTop ∧ ∃ v < 256, (s.isrvecStk s.isrvecStkTop).toNat = v ∧
      bit s.isr v = true ∧ (∀ u < 256, bit s.isr u = true → u ≤ v) ∧
      ∃ eoi t, processEoi s = .ok (eoi, t) ∧ t.isrvecStkTop + 1 = s.isrvecStkTop ∧
        t.isrvecStk = s.isrvecStk ∧ ∀ u, bit t.isr u = (bit s.isr u && !decide (v = u)))

theorem eoi_pops_highest {s : Vlapic} (kept : InService s) : EoiPopsHighest s := by
  obtain ⟨empty, done⟩ | ⟨some_, eoi, done⟩ := process_eoi_ok kept
  · refine .inl ⟨empty, fun v bound => ?_, done⟩
    rw [← Bool.not_eq_true, kept.listed v bound]
    rintro ⟨i, positive, within, -⟩
    omega
  · have bound : (s.isrvecStk s.isrvecStkTop).toNat < 256 := (s.isrvecStk s.isrvecStkTop).isLt
    refine .inr ⟨some_, _, bound, rfl, ?_, fun u limit set_ => ?_, eoi, _, done, ?_, rfl,
      fun u => bit_popped u⟩
    · exact (kept.listed _ bound).mpr ⟨s.isrvecStkTop, some_, Nat.le_refl _, rfl⟩
    · obtain ⟨i, -, within, rfl⟩ := (kept.listed u limit).mp set_
      by_cases last : i = s.isrvecStkTop
      · exact Nat.le_of_eq (by rw [last])
      · exact Nat.le_of_lt (stack_ordered kept (Nat.lt_of_le_of_ne within last) (Nat.le_refl _))
    · exact Nat.sub_add_cancel some_

/-- Every run goes through, unless it posts a vector that is none. -/
theorem in_service_stack (events : List Event) :
    (∃ a, attempts step ⟨reset, none⟩ events = .ok a ∧ InService a.vlapic ∧
        a.vlapic.isrvecStkTop < isrvecStkSize ∧ EoiPopsHighest a.vlapic) ∨
      ∃ vector level, .intrReady vector level ∈ events ∧ ¬ (0 ≤ vector ∧ vector < 256) ∧
        attempts step ⟨reset, none⟩ events = .error (.invalidVector vector) := by
  have keeps : ∀ a e a', Sound a → step a e = .ok a' → Sound a' := by
    intro a e a' sound taken
    obtain ⟨b, done, sound'⟩ | ⟨vector, level, -, -, fails⟩ := step_sound sound e
    · rw [done] at taken
      rw [← Except.ok.inj taken]
      exact sound'
    · rw [fails] at taken
      cases taken
  obtain ⟨a, done, sound⟩ | ⟨a, e, p, sound, inside, fails, stopped⟩ :=
    attempts_ok_or_fails keeps events _ reset_sound
  · refine .inl ⟨a, done, sound.kept, ?_, eoi_pops_highest sound.kept⟩
    exact Nat.lt_succ_of_lt (stack_not_full sound.kept)
  · refine .inr ?_
    obtain ⟨b, done, -⟩ | ⟨vector, level, rfl, invalid, fails'⟩ := step_sound sound e
    · rw [done] at fails
      cases fails
    · rw [fails'] at fails
      rw [stopped, ← Except.error.inj fails]
      exact ⟨vector, level, inside, invalid, rfl⟩

example :
    (attempts step ⟨reset, none⟩ [.writeSvr 0x1ff, .intrReady 0x31 false, .pendingIntr,
      .intrReady 0x52 false, .accept, .pendingIntr, .accept]).map
        (fun a => (a.vlapic.isrvecStkTop, a.vlapic.isrvecStk 1, a.vlapic.isrvecStk 2)) =
      .ok (2, 0x31, 0x52) := by
  decide +kernel

end VmmVlapic
