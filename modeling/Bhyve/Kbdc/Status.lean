import Bhyve.Lib.StepRuns
import Bhyve.Kbdc.Atkbdc

namespace Kbdc
open BoundedFifo StepRuns

inductive Source where
  | controller
  | mouse
  | keyboard
  deriving DecidableEq

variable (sc : Atkbdc)

/-- The byte that the next read of port 0x60 is to return: a response, the head of the mouse's FIFO
    or that of the keyboard's. -/
def Atkbdc.next : Option (Source × Byte) :=
  if sc.ctrlbyte ≠ 0 then some (.controller, sc.ctrlbyte.setWidth 8)
  else match get ps2mouseFifosz sc.ps2mouse.fifo with
    | some got => some (.mouse, got.1)
    | none => (get fifosz sc.kbd).map fun got => (.keyboard, got.1)

def Atkbdc.full : Bool := hasFlag sc.status kbdsKbdBufferFull
def Atkbdc.auxFull : Bool := hasFlag sc.status kbdsAuxBufferFull

structure Truthful (sc : Atkbdc) : Prop where
  full : sc.full = true ↔ ∃ source val, sc.next = some (source, val)
  aux : sc.full = true → (sc.auxFull = true ↔ ∃ val, sc.next = some (.mouse, val))

structure StatusHolds (sc : Atkbdc) (event : Event) : Prop where
  after : Truthful (step sc event)
  read : ∀ bytes eax, event = .data true bytes eax → bytes ≤ 2 →
    ∃ source val, sc.next = some (source, val) ∧ (dataIn sc).eax = some (val.setWidth 32)

def Atkbdc.awaits : Bool := decide (sc.ctrlbyte ≠ 0)
def Atkbdc.moused : Bool := decide (0 < sc.ps2mouse.fifo.num)
def Atkbdc.keyed : Bool := decide (0 < sc.kbd.num)

def flagsOf (status : Byte) : Bool × Bool :=
  (hasFlag status kbdsKbdBufferFull, hasFlag status kbdsAuxBufferFull)

def Atkbdc.due : Bool × Bool :=
  (sc.awaits || sc.moused || sc.keyed, !sc.awaits && sc.moused)

def Agrees (sc : Atkbdc) : Prop := flagsOf sc.status = sc.due

/-- The keyboard has a byte for the controller: in translation a break code is none by itself. -/
def Atkbdc.yields : Bool :=
  if sc.translates then sc.ps2kbd.bytes.any fun val => decide (val ≠ 0xf0)
  else decide (sc.ps2kbd.bytes ≠ [])

/-- The condition of a command: a response that it drops leaves the status full, and the port of the
    mouse is not turned off over a byte of a keyboard that is turned off. -/
def CommandKept (cmd : BitVec 32) : Prop :=
  (response sc cmd).isSome ∨
    if cmd = kbdcDisableAuxPort then
      ¬ (sc.keyed = true ∧ hasFlag (sc.ram 0) kbdDisableKbdPort = true)
    else sc.awaits = true →
      if cmd = kbdcEnableAuxPort then sc.moused = true ∨ sc.keyed = true
      else if cmd = kbdcEnableKbdPort then
        sc.moused = true ∨ sc.keyed = true ∨ sc.yields = true
      else if sc.moused = true then hasFlag (sc.ram 0) kbdDisableAuxPort = false
      else sc.keyed = true

/-- The condition of a step. A response is read while the keyboard's FIFO holds data and the mouse's
    does not, a read finds data, and no data of the mouse comes, or is looked at again, over a
    response. -/
def StatusKept (sc : Atkbdc) : Event → Prop
  | .data true bytes _ => bytes ≤ 2 →
      if sc.awaits then sc.keyed = true ∧ sc.moused = false
      else sc.moused = true ∨ sc.keyed = true
  | .data false bytes _ => bytes ≤ 2 → hasFlag sc.status kbdsCtrlFlag = false →
      ¬ (sc.awaits = true ∧ sc.moused = true)
  | .status false bytes eax => bytes = 1 → CommandKept sc eax
  | .status true _ _ => True
  | .key _ _ => True
  | .pointer _ _ _ => sc.ps2mouse.reporting = true → sc.awaits = false

structure Settled (sc : Atkbdc) : Prop where
  agrees : Agrees sc
  waits : sc.ps2mouse.Waits
  pending : sc.curcmd ≠ 0 → sc.ctrlbyte = 0
  valid : sc.ps2kbd.Valid

theorem flags_both : ∀ x : Byte,
    flagsOf (x ||| (kbdsAuxBufferFull ||| kbdsKbdBufferFull)) = (true, true) := by decide

theorem flags_full : ∀ x : Byte, flagsOf (x ||| kbdsKbdBufferFull) = (true, (flagsOf x).2) := by
  decide

theorem flags_none : ∀ x : Byte,
    flagsOf (x &&& ~~~(kbdsAuxBufferFull ||| kbdsKbdBufferFull)) = (false, false) := by decide

theorem flags_no_aux : ∀ x : Byte,
    flagsOf (x &&& ~~~kbdsAuxBufferFull) = ((flagsOf x).1, false) := by decide

theorem flags_not_full : ∀ x : Byte,
    flagsOf (x &&& ~~~kbdsKbdBufferFull) = (false, (flagsOf x).2) := by decide

theorem flags_ctrl : ∀ x : Byte, flagsOf (x ||| kbdsCtrlFlag) = flagsOf x ∧
    flagsOf (x &&& ~~~kbdsCtrlFlag) = flagsOf x ∧ flagsOf (x ||| kbdsSysFlag) = flagsOf x ∧
      flagsOf (x &&& ~~~kbdsSysFlag) = flagsOf x := by decide

theorem get_some_iff {n : Nat} (f : Fifo Byte) : 0 < f.num ↔ ∃ got, get n f = some got := by
  rw [Nat.pos_iff_ne_zero, ← Option.isSome_iff_exists, Option.isSome_iff_ne_none]
  exact not_congr get_none.symm

theorem next_eq : (sc.awaits = true → ∃ val, sc.next = some (.controller, val)) ∧
      (sc.awaits = false → sc.moused = true → ∃ val, sc.next = some (.mouse, val)) ∧
      (sc.awaits = false → sc.moused = false → sc.keyed = true →
        ∃ val, sc.next = some (.keyboard, val)) ∧
      (sc.awaits = false → sc.moused = false → sc.keyed = false → sc.next = none) := by
  unfold Atkbdc.awaits Atkbdc.moused Atkbdc.keyed Atkbdc.next
  simp only [decide_eq_true_eq, decide_eq_false_iff_not, not_not]
  refine ⟨fun response => ?_, fun idle mouse => ?_, fun idle empty keyboard => ?_,
    fun idle empty none_ => ?_⟩
  · rw [if_pos response]
    exact ⟨_, rfl⟩
  · obtain ⟨got, taken⟩ := (@get_some_iff ps2mouseFifosz _).mp mouse
    rw [if_neg (not_not_intro idle), taken]
    exact ⟨_, rfl⟩
  · obtain ⟨got, taken⟩ := (@get_some_iff fifosz _).mp keyboard
    have nothing : get ps2mouseFifosz sc.ps2mouse.fifo = none :=
      get_none.mpr (Nat.eq_zero_of_not_pos empty)
    rw [if_neg (not_not_intro idle), nothing, taken]
    exact ⟨_, rfl⟩
  · have nothing : get ps2mouseFifosz sc.ps2mouse.fifo = none :=
      get_none.mpr (Nat.eq_zero_of_not_pos empty)
    have nor : get fifosz sc.kbd = none := get_none.mpr (Nat.eq_zero_of_not_pos none_)
    rw [if_neg (not_not_intro idle), nothing, nor]
    rfl

theorem next_due : ((∃ source val, sc.next = some (source, val)) ↔ sc.due.1 = true) ∧
      ((∃ val, sc.next = some (.mouse, val)) ↔ sc.due.2 = true) := by
  obtain ⟨controller, mouse, keyboard, nothing⟩ := next_eq sc
  unfold Atkbdc.due
  cases response : sc.awaits with
  | true =>
    obtain ⟨val, next⟩ := controller response
    simp [next]
  | false =>
    cases moused : sc.moused with
    | true =>
      obtain ⟨val, next⟩ := mouse response moused
      simp [next]
    | false =>
      cases keyed : sc.keyed with
      | true =>
        obtain ⟨val, next⟩ := keyboard response moused keyed
        simp [next]
      | false => simp [nothing response moused keyed]

theorem truthful_iff : Truthful sc ↔ (flagsOf sc.status).1 = sc.due.1 ∧
    ((flagsOf sc.status).1 = true → (flagsOf sc.status).2 = sc.due.2) := by
  obtain ⟨any, mouse⟩ := next_due sc
  constructor
  · intro truthful
    refine ⟨?_, fun full => ?_⟩
    · exact Bool.eq_iff_iff.mpr (truthful.full.trans any)
    · exact Bool.eq_iff_iff.mpr ((truthful.aux full).trans mouse)
  · rintro ⟨full, aux⟩
    exact ⟨(Bool.eq_iff_iff.mp full).trans any.symm,
      fun set_ => (Bool.eq_iff_iff.mp (aux set_)).trans mouse.symm⟩

theorem agrees_truthful {sc : Atkbdc} (agrees : Agrees sc) : Truthful sc := by
  rw [truthful_iff, agrees]
  exact ⟨rfl, fun _ => rfl⟩

section
variable {sc t u : Atkbdc}

structure Queues (sc t : Atkbdc) : Prop where
  ctrlbyte : t.ctrlbyte = sc.ctrlbyte
  ps2mouse : t.ps2mouse = sc.ps2mouse
  ram : t.ram = sc.ram
  curcmd : t.curcmd = sc.curcmd
  valid : sc.ps2kbd.Valid → t.ps2kbd.Valid
  queued : ∃ q, flagsOf t.status = ((flagsOf sc.status).1 || q, (flagsOf sc.status).2) ∧
    t.keyed = (sc.keyed || q)

theorem queues_nothing (ctrlbyte : t.ctrlbyte = sc.ctrlbyte) (ps2mouse : t.ps2mouse = sc.ps2mouse)
    (ram : t.ram = sc.ram) (curcmd : t.curcmd = sc.curcmd)
    (valid : sc.ps2kbd.Valid → t.ps2kbd.Valid) (status : t.status = sc.status)
    (kbd : t.kbd = sc.kbd) : Queues sc t := by
  refine ⟨ctrlbyte, ps2mouse, ram, curcmd, valid, false, ?_, ?_⟩
  · rw [status, Bool.or_false]
  · rw [Atkbdc.keyed, kbd, Bool.or_false, ← Atkbdc.keyed]

theorem queues_refl (sc : Atkbdc) : Queues sc sc :=
  queues_nothing rfl rfl rfl rfl (fun valid => valid) rfl rfl

theorem queues_trans (first : Queues sc t) (second : Queues t u) : Queues sc u := by
  obtain ⟨q, flags, keyed⟩ := first.queued
  obtain ⟨r, flags', keyed'⟩ := second.queued
  refine ⟨second.ctrlbyte.trans first.ctrlbyte, second.ps2mouse.trans first.ps2mouse,
    second.ram.trans first.ram, second.curcmd.trans first.curcmd,
    fun valid => second.valid (first.valid valid), q || r, ?_, ?_⟩
  · rw [flags', flags, Bool.or_assoc]
  · rw [keyed', keyed, Bool.or_assoc]

theorem queue_data_queues (sc : Atkbdc) (val : Byte) : Queues sc (kbdQueueData sc val) := by
  unfold kbdQueueData
  split
  · next room =>
    refine ⟨rfl, rfl, rfl, rfl, fun valid => valid, true, ?_, ?_⟩
    · rw [Bool.or_true]
      exact flags_full sc.status
    · rw [Bool.or_true]
      apply decide_eq_true
      rw [put_num room]
      exact Nat.succ_pos _
  · exact queues_refl sc

theorem ps2kbd_queues {ps2kbd : Ps2kbd} (valid : sc.ps2kbd.Valid → ps2kbd.Valid) :
    Queues sc { sc with ps2kbd := ps2kbd } :=
  queues_nothing rfl rfl rfl rfl valid rfl rfl

theorem ps2kbd_taken {val : Byte} {ps2kbd : Ps2kbd} (read : ps2kbdRead sc.ps2kbd = some (val, ps2kbd)) :
    Queues sc { sc with ps2kbd := ps2kbd } :=
  ps2kbd_queues fun valid => (ps2kbd_read_some valid read).1

theorem translated_read_queues (fuel : Nat) :
    ∀ release sc, Queues sc (translatedRead fuel release sc) := by
  induction fuel with
  | zero => intro release sc; exact queues_refl sc
  | succ fuel ih =>
    intro release sc
    unfold translatedRead
    split
    · exact queues_refl sc
    · next read =>
      split
      · exact queues_trans (ps2kbd_taken read) (ih _ _)
      · exact queues_trans (ps2kbd_taken read) (queue_data_queues _ _)

theorem plain_read_queues (fuel : Nat) : ∀ sc, Queues sc (plainRead fuel sc) := by
  induction fuel with
  | zero => intro sc; exact queues_refl sc
  | succ fuel ih =>
    intro sc
    unfold plainRead
    split
    · split
      · exact queues_refl sc
      · next read =>
        exact queues_trans (ps2kbd_taken read) (queues_trans (queue_data_queues _ _) (ih _))
    · exact queues_refl sc

theorem assert_kbd_queues (sc : Atkbdc) : Queues sc (assertKbdIntr sc) := by
  unfold assertKbdIntr
  split
  · exact queues_nothing rfl rfl rfl rfl (fun valid => valid) rfl rfl
  · exact queues_refl sc

theorem assert_aux_queues (sc : Atkbdc) : Queues sc (assertAuxIntr sc) := by
  unfold assertAuxIntr
  split
  · exact queues_nothing rfl rfl rfl rfl (fun valid => valid) rfl rfl
  · exact queues_refl sc

theorem kbd_take_queues (sc : Atkbdc) : Queues sc (kbdTake sc) := by
  unfold kbdTake
  split
  · exact translated_read_queues _ _ _
  · exact plain_read_queues _ _

theorem kbd_read_queues (sc : Atkbdc) : Queues sc (kbdRead sc) := by
  unfold kbdRead
  dsimp only
  split
  · exact queues_trans (kbd_take_queues sc) (assert_kbd_queues _)
  · exact kbd_take_queues sc

theorem queues_awaits (queues : Queues sc t) : t.awaits = sc.awaits := by
  rw [Atkbdc.awaits, queues.ctrlbyte, ← Atkbdc.awaits]

theorem queues_moused (queues : Queues sc t) : t.moused = sc.moused := by
  rw [Atkbdc.moused, queues.ps2mouse, ← Atkbdc.moused]

theorem queues_agrees (queues : Queues sc t) (agrees : Agrees sc) : Agrees t := by
  obtain ⟨q, flags, keyed⟩ := queues.queued
  unfold Agrees at agrees ⊢
  rw [flags, agrees]
  unfold Atkbdc.due
  rw [queues_awaits queues, queues_moused queues, keyed, Bool.or_assoc]

theorem queues_settled (queues : Queues sc t) (settled : Settled sc) : Settled t where
  agrees := queues_agrees queues settled.agrees
  waits := by
    rw [queues.ps2mouse]
    exact settled.waits
  pending := by
    rw [queues.curcmd, queues.ctrlbyte]
    exact settled.pending
  valid := queues.valid settled.valid

theorem aux_poll_moused (moused : sc.moused = true) : auxPoll sc = assertAuxIntr (auxRaised sc) :=
  if_pos (of_decide_eq_true moused)

theorem aux_poll_empty (empty : sc.moused = false) : auxPoll sc = sc :=
  if_neg (of_decide_eq_false empty)

theorem both_agree {status : Byte} {outport : Byte} (flags : flagsOf status = (true, true))
    (moused : sc.moused = true) (idle : sc.awaits = false) :
    Agrees { sc with status := status, outport := outport } := by
  show flagsOf status = (sc.awaits || sc.moused || sc.keyed, !sc.awaits && sc.moused)
  rw [flags, moused, idle]
  rfl

theorem aux_poll_settles (moused : sc.moused = true) (idle : sc.awaits = false)
    (waits : sc.ps2mouse.Waits) (valid : sc.ps2kbd.Valid) : Settled (auxPoll sc) := by
  rw [aux_poll_moused moused]
  apply queues_settled (assert_aux_queues _)
  exact ⟨both_agree (flags_both _) moused idle, waits, fun _ => not_not.mp (of_decide_eq_false idle),
    valid⟩

theorem aux_poll_settled (settled : Settled sc) (clear : ¬ (sc.awaits = true ∧ sc.moused = true)) :
    Settled (auxPoll sc) := by
  cases moused : sc.moused with
  | false =>
    rw [aux_poll_empty moused]
    exact settled
  | true =>
    have idle : sc.awaits = false := (Bool.not_eq_true _).mp fun awaits => clear ⟨awaits, moused⟩
    exact aux_poll_settles moused idle settled.waits settled.valid

theorem poll_settles (moused : sc.moused = true) (idle : sc.awaits = false)
    (waits : sc.ps2mouse.Waits) (valid : sc.ps2kbd.Valid) : Settled (poll sc) :=
  queues_settled (kbd_read_queues _) (aux_poll_settles moused idle waits valid)

theorem poll_settled (settled : Settled sc) (clear : ¬ (sc.awaits = true ∧ sc.moused = true)) :
    Settled (poll sc) :=
  queues_settled (kbd_read_queues _) (aux_poll_settled settled clear)

end

section
variable {sc : Atkbdc}

theorem translated_read_keyed (fuel : Nat) : ∀ release sc, sc.ps2kbd.Valid → sc.kbd.num = 0 →
    sc.ps2kbd.fifo.num = fuel → ((translatedRead fuel release sc).keyed = true ↔
      ∃ val ∈ sc.ps2kbd.bytes, val ≠ 0xf0) := by
  induction fuel with
  | zero =>
    intro release sc valid empty count
    have nothing : sc.ps2kbd.bytes = [] := List.eq_nil_of_length_eq_zero ((contents_length _).trans count)
    rw [nothing]
    refine ⟨fun keyed => ?_, fun never => ?_⟩
    · exact absurd (of_decide_eq_true keyed) (Nat.not_lt.mpr (Nat.le_of_eq empty))
    · obtain ⟨val, member, -⟩ := never
      cases member
  | succ fuel ih =>
    intro release sc valid empty count
    unfold translatedRead
    cases read : ps2kbdRead sc.ps2kbd with
    | none =>
      have none_ := (contents_length sc.ps2kbd.fifo).symm.trans
        (congrArg List.length (ps2kbd_read_none read))
      rw [count] at none_
      cases none_
    | some got =>
      obtain ⟨val, ps2kbd⟩ := got
      obtain ⟨after, first, taken, -⟩ := ps2kbd_read_some valid read
      dsimp only
      rw [first]
      split
      · next isBreak =>
        have rest : ps2kbd.fifo.num = fuel := by omega
        rw [ih 0x80 { sc with ps2kbd := ps2kbd } after empty rest]
        constructor
        · rintro ⟨code, member, other⟩
          exact ⟨code, List.mem_cons_of_mem _ member, other⟩
        · rintro ⟨code, member, other⟩
          obtain rfl | later := List.mem_cons.mp member
          · exact absurd isBreak other
          · exact ⟨code, later, other⟩
      · next isCode =>
        refine ⟨fun _ => ⟨val, List.mem_cons_self, isCode⟩, fun _ => ?_⟩
        have room : sc.kbd.num < fifosz := by
          rw [empty]
          decide
        unfold kbdQueueData
        rw [if_pos room]
        apply decide_eq_true
        rw [put_num room]
        exact Nat.succ_pos _

theorem queues_keyed {t : Atkbdc} (queues : Queues sc t) (keyed : sc.keyed = true) :
    t.keyed = true := by
  obtain ⟨q, -, grown⟩ := queues.queued
  rw [grown, keyed, Bool.true_or]

theorem plain_read_keyed (fuel : Nat) (valid : sc.ps2kbd.Valid) (empty : sc.kbd.num = 0) :
    (plainRead (fuel + 1) sc).keyed = true ↔ sc.ps2kbd.bytes ≠ [] := by
  have room : sc.kbd.num < fifosz := by
    rw [empty]
    decide
  unfold plainRead
  rw [if_pos room]
  cases read : ps2kbdRead sc.ps2kbd with
  | none =>
    refine ⟨fun keyed => ?_, fun never => absurd (ps2kbd_read_none read) never⟩
    exact absurd (of_decide_eq_true keyed) (Nat.not_lt.mpr (Nat.le_of_eq empty))
  | some got =>
    obtain ⟨-, first, -, -⟩ := ps2kbd_read_some valid read
    rw [first]
    refine ⟨fun _ => List.cons_ne_nil _ _, fun _ => ?_⟩
    apply queues_keyed (plain_read_queues fuel _)
    unfold kbdQueueData
    rw [if_pos room]
    apply decide_eq_true
    rw [put_num room]
    exact Nat.succ_pos _

theorem kbd_read_keyed (valid : sc.ps2kbd.Valid) :
    (kbdRead sc).keyed = true ↔ sc.keyed = true ∨ sc.yields = true := by
  have asserted : ∀ t, (assertKbdIntr t).keyed = t.keyed := by
    intro t
    unfold assertKbdIntr
    split <;> rfl
  have taken : (kbdRead sc).keyed = (kbdTake sc).keyed := by
    unfold kbdRead
    dsimp only
    split
    · exact asserted _
    · rfl
  rw [taken]
  by_cases keyed : sc.keyed = true
  · exact ⟨fun _ => .inl keyed, fun _ => queues_keyed (kbd_take_queues sc) keyed⟩
  · have empty : sc.kbd.num = 0 :=
      Nat.eq_zero_of_not_pos (of_decide_eq_false ((Bool.not_eq_true _).mp keyed))
    rw [or_iff_right keyed]
    unfold kbdTake Atkbdc.yields
    split
    · rw [translated_read_keyed _ 0 sc valid empty rfl, List.any_eq_true]
      simp
    · rw [decide_eq_true_eq]
      exact plain_read_keyed 14 valid empty

end

section
variable {sc t : Atkbdc}

theorem due_congr (ctrlbyte : t.ctrlbyte = sc.ctrlbyte) (ps2mouse : t.ps2mouse = sc.ps2mouse)
    (kbd : t.kbd = sc.kbd) : t.due = sc.due := by
  unfold Atkbdc.due Atkbdc.awaits Atkbdc.moused Atkbdc.keyed
  rw [ctrlbyte, ps2mouse, kbd]

theorem settled_congr (settled : Settled sc) (flags : flagsOf t.status = flagsOf sc.status)
    (ctrlbyte : t.ctrlbyte = sc.ctrlbyte) (ps2mouse : t.ps2mouse = sc.ps2mouse)
    (kbd : t.kbd = sc.kbd) (ps2kbd : t.ps2kbd.Valid) (pending : t.curcmd ≠ 0 → t.ctrlbyte = 0) :
    Settled t where
  agrees := flags.trans (settled.agrees.trans (due_congr ctrlbyte ps2mouse kbd).symm)
  waits := by
    rw [ps2mouse]
    exact settled.waits
  pending := pending
  valid := ps2kbd

theorem mouse_read_settled (settled : Settled sc) (idle : sc.awaits = false)
    {val : Byte} {ps2mouse : Ps2mouse} (read : ps2mouseRead sc.ps2mouse = some (val, ps2mouse)) :
    Settled (poll (auxDrained { sc with ps2mouse := ps2mouse })) := by
  have moused : sc.moused = true := by
    apply decide_eq_true
    obtain ⟨got, taken, -⟩ := Option.map_eq_some_iff.mp read
    exact get_some_iff _ |>.mpr ⟨got, taken⟩
  have waits : ps2mouse.Waits := by
    obtain ⟨got, -, same⟩ := Option.map_eq_some_iff.mp read
    cases same
    exact settled.waits
  have flags : flagsOf sc.status = (true, true) := by
    rw [settled.agrees, Atkbdc.due, idle, moused]
    rfl
  have response : sc.ctrlbyte = 0 := not_not.mp (of_decide_eq_false idle)
  have drained : Settled (auxDrained { sc with ps2mouse := ps2mouse }) := by
    unfold auxDrained
    split
    · next last =>
      have empty : ps2mouse.fifo.num = 0 := last
      refine ⟨?_, waits, fun _ => response, settled.valid⟩
      show flagsOf _ = (sc.awaits || decide (0 < ps2mouse.fifo.num) || sc.keyed,
        !sc.awaits && decide (0 < ps2mouse.fifo.num))
      rw [idle, empty]
      split
      · next none_ =>
        have unkeyed : sc.keyed = false := decide_eq_false (by rw [none_]; exact Nat.lt_irrefl 0)
        rw [flags_none, unkeyed]
        rfl
      · next some_ =>
        have keyed : sc.keyed = true := decide_eq_true (Nat.pos_of_ne_zero some_)
        rw [flags_no_aux, flags, keyed]
        rfl
    · next more =>
      have left : decide (0 < ps2mouse.fifo.num) = true := decide_eq_true (Nat.pos_of_ne_zero more)
      refine ⟨?_, waits, fun _ => response, settled.valid⟩
      show flagsOf sc.status = (sc.awaits || decide (0 < ps2mouse.fifo.num) || sc.keyed,
        !sc.awaits && decide (0 < ps2mouse.fifo.num))
      rw [flags, idle, left]
      rfl
  apply poll_settled drained
  intro both
  have same : (auxDrained { sc with ps2mouse := ps2mouse }).awaits = sc.awaits := by
    unfold auxDrained
    split <;> rfl
  exact absurd (same.symm.trans both.1) (by rw [idle]; exact Bool.false_ne_true)

theorem all_drained_settled (settled : Settled sc) (idle : sc.awaits = false) :
    Settled (allDrained sc) := by
  unfold allDrained
  split
  · next empty =>
    refine ⟨?_, settled.waits, settled.pending, settled.valid⟩
    show flagsOf (sc.status &&& ~~~(kbdsAuxBufferFull ||| kbdsKbdBufferFull)) = sc.due
    have unmoused : sc.moused = false := decide_eq_false (Nat.not_lt.mpr (Nat.le_of_eq empty.1))
    have unkeyed : sc.keyed = false := decide_eq_false (Nat.not_lt.mpr (Nat.le_of_eq empty.2))
    rw [flags_none, Atkbdc.due, idle, unmoused, unkeyed]
    rfl
  · exact settled

theorem kbd_dequeue_settled (settled : Settled sc) (idle : sc.awaits = false)
    (unmoused : sc.moused = false) {val : Byte} {kbd : Fifo Byte}
    (taken : get fifosz sc.kbd = some (val, kbd)) :
    Settled (allDrained (poll (kbdDrained { sc with kbd := kbd }))) := by
  have response : sc.ctrlbyte = 0 := not_not.mp (of_decide_eq_false idle)
  have keyed : sc.keyed = true := decide_eq_true ((get_some_iff _).mpr ⟨_, taken⟩)
  have flags : flagsOf sc.status = (true, false) := by
    rw [settled.agrees, Atkbdc.due, idle, unmoused, keyed]
    rfl
  have drained : Settled (kbdDrained { sc with kbd := kbd }) := by
    unfold kbdDrained
    split
    · next last =>
      refine ⟨?_, settled.waits, fun _ => response, settled.valid⟩
      show flagsOf (sc.status &&& ~~~kbdsKbdBufferFull) =
        (sc.awaits || sc.moused || decide (0 < kbd.num), !sc.awaits && sc.moused)
      have empty : kbd.num = 0 := last
      rw [flags_not_full, flags, idle, unmoused, empty]
      rfl
    · next more =>
      refine ⟨?_, settled.waits, fun _ => response, settled.valid⟩
      show flagsOf sc.status =
        (sc.awaits || sc.moused || decide (0 < kbd.num), !sc.awaits && sc.moused)
      have left : decide (0 < kbd.num) = true := decide_eq_true (Nat.pos_of_ne_zero more)
      rw [flags, idle, unmoused, left]
      rfl
  have same : (kbdDrained { sc with kbd := kbd }).awaits = sc.awaits ∧
      (kbdDrained { sc with kbd := kbd }).moused = sc.moused := by
    unfold kbdDrained
    split
    · exact ⟨rfl, rfl⟩
    · exact ⟨rfl, rfl⟩
  have polled : Settled (poll (kbdDrained { sc with kbd := kbd })) := by
    apply poll_settled drained
    intro both
    exact absurd (same.1.symm.trans both.1) (by rw [idle]; exact Bool.false_ne_true)
  apply all_drained_settled polled
  unfold poll
  rw [aux_poll_empty (same.2.trans unmoused), queues_awaits (kbd_read_queues _), same.1, idle]

theorem untruthful (awaits : sc.awaits = true) (flags : flagsOf sc.status = (true, true)) :
    ¬ Truthful sc := by
  rw [truthful_iff, flags, Atkbdc.due, awaits]
  exact fun both => Bool.false_ne_true (both.2 rfl).symm

theorem aux_poll_flags (moused : sc.moused = true) :
    flagsOf (auxPoll sc).status = (true, true) ∧ (auxPoll sc).awaits = sc.awaits := by
  obtain ⟨q, flags, -⟩ := (assert_aux_queues (auxRaised sc)).queued
  rw [aux_poll_moused moused]
  refine ⟨?_, (queues_awaits (assert_aux_queues (auxRaised sc))).trans rfl⟩
  rw [flags]
  show ((flagsOf (sc.status ||| _)).1 || q, (flagsOf (sc.status ||| _)).2) = (true, true)
  rw [flags_both]
  rfl

theorem poll_over_response (awaits : sc.awaits = true) (moused : sc.moused = true) :
    ¬ Truthful (poll sc) := by
  obtain ⟨flags, same⟩ := aux_poll_flags moused
  have queues := kbd_read_queues (auxPoll sc)
  obtain ⟨q, after, -⟩ := queues.queued
  apply untruthful
  · exact (queues_awaits queues).trans (same.trans awaits)
  · show flagsOf (kbdRead (auxPoll sc)).status = _
    rw [after, flags]
    rfl

theorem ctrl_cleared (settled : Settled sc) :
    Settled { sc with status := sc.status &&& ~~~kbdsCtrlFlag } :=
  settled_congr settled (flags_ctrl sc.status).2.1 rfl rfl rfl settled.valid settled.pending

theorem data_in_response (awaits : sc.awaits = true) :
    dataIn sc = ⟨{ sc with
      curcmd := 0
      ctrlbyte := 0
      status := sc.status &&& ~~~kbdsCtrlFlag }, some ((sc.ctrlbyte.setWidth 8).setWidth 32), 0⟩ := by
  unfold dataIn
  dsimp only
  rw [if_pos (of_decide_eq_true awaits)]
  rfl

theorem data_in_idle (idle : sc.awaits = false) :
    dataIn sc = ⟨{ (dequeueData { sc with curcmd := 0 }).2 with
      status := (dequeueData { sc with curcmd := 0 }).2.status &&& ~~~kbdsCtrlFlag },
        (dequeueData { sc with curcmd := 0 }).1.map (BitVec.setWidth 32), 0⟩ := by
  unfold dataIn
  dsimp only
  rw [if_neg (of_decide_eq_false idle)]

theorem response_read (settled : Settled sc) (awaits : sc.awaits = true) :
    Truthful (dataIn sc).sc ↔ sc.keyed = true ∧ sc.moused = false := by
  have flags : flagsOf (dataIn sc).sc.status = (true, false) := by
    rw [data_in_response awaits]
    rw [(flags_ctrl sc.status).2.1, settled.agrees, Atkbdc.due, awaits]
    rfl
  have due : (dataIn sc).sc.due = (sc.moused || sc.keyed, sc.moused) := by
    rw [data_in_response awaits]
    rfl
  rw [truthful_iff, flags, due]
  cases sc.moused <;> cases sc.keyed <;> decide

theorem data_in_settled (settled : Settled sc)
    (kept : if sc.awaits then sc.keyed = true ∧ sc.moused = false
      else sc.moused = true ∨ sc.keyed = true) : Settled (dataIn sc).sc := by
  cases awaits : sc.awaits with
  | true =>
    rw [awaits, if_pos rfl] at kept
    rw [data_in_response awaits]
    refine ⟨?_, settled.waits, fun never => absurd rfl never, settled.valid⟩
    show flagsOf (sc.status &&& ~~~kbdsCtrlFlag) = (sc.moused || sc.keyed, sc.moused)
    rw [(flags_ctrl sc.status).2.1, settled.agrees, Atkbdc.due, awaits, kept.1, kept.2]
    rfl
  | false =>
    have begun : Settled { sc with curcmd := 0 } :=
      settled_congr settled rfl rfl rfl rfl settled.valid fun never => absurd rfl never
    rw [data_in_idle awaits]
    apply ctrl_cleared
    unfold dequeueData
    cases mouse : ps2mouseRead sc.ps2mouse with
    | some got => exact mouse_read_settled begun awaits mouse
    | none =>
      have none_ : get ps2mouseFifosz sc.ps2mouse.fifo = none := Option.map_eq_none_iff.mp mouse
      have unmoused : sc.moused = false :=
        decide_eq_false (Nat.not_lt.mpr (Nat.le_of_eq (get_none.mp none_)))
      cases keyboard : get fifosz sc.kbd with
      | some got => exact kbd_dequeue_settled begun awaits unmoused keyboard
      | none => exact all_drained_settled begun awaits

theorem data_in_returns {source : Source} {val : Byte} (next : sc.next = some (source, val)) :
    (dataIn sc).eax = some (val.setWidth 32) := by
  unfold Atkbdc.next at next
  cases awaits : sc.awaits with
  | true =>
    rw [if_pos (of_decide_eq_true awaits)] at next
    cases next
    rw [data_in_response awaits]
  | false =>
    rw [if_neg (of_decide_eq_false awaits)] at next
    rw [data_in_idle awaits]
    unfold dequeueData ps2mouseRead
    cases mouse : get ps2mouseFifosz sc.ps2mouse.fifo with
    | some got =>
      rw [mouse] at next
      cases next
      rfl
    | none =>
      rw [mouse] at next
      obtain ⟨got, keyboard, same⟩ := Option.map_eq_some_iff.mp next
      cases same
      rw [keyboard]
      rfl

theorem data_in_iff (settled : Settled sc) :
    (Truthful (dataIn sc).sc ∧ ∃ source val, sc.next = some (source, val) ∧
        (dataIn sc).eax = some (val.setWidth 32)) ↔
      if sc.awaits then sc.keyed = true ∧ sc.moused = false
        else sc.moused = true ∨ sc.keyed = true := by
  obtain ⟨due, -⟩ := next_due sc
  constructor
  · rintro ⟨truthful, source, val, next, -⟩
    cases awaits : sc.awaits with
    | true => exact (response_read settled awaits).mp truthful
    | false =>
      have some_ := due.mp ⟨source, val, next⟩
      rw [Atkbdc.due, awaits, Bool.false_or, Bool.or_eq_true] at some_
      exact some_
  · intro kept
    refine ⟨agrees_truthful (data_in_settled settled kept).agrees, ?_⟩
    have some_ : sc.due.1 = true := by
      unfold Atkbdc.due
      cases awaits : sc.awaits with
      | true => rfl
      | false =>
        rw [awaits, if_neg Bool.false_ne_true] at kept
        rw [Bool.false_or, Bool.or_eq_true]
        exact kept
    obtain ⟨source, val, next⟩ := due.mpr some_
    exact ⟨source, val, next, data_in_returns next⟩

theorem argument_settled (settled : Settled sc) (val : Byte) :
    Settled { argument sc val with
      curcmd := 0
      status := (argument sc val).status &&& ~~~kbdsCtrlFlag } := by
  have done : ∀ {t : Atkbdc}, Settled t →
      Settled { t with curcmd := 0, status := t.status &&& ~~~kbdsCtrlFlag } := fun after =>
    settled_congr after (flags_ctrl _).2.1 rfl rfl rfl after.valid fun never => absurd rfl never
  have answered := write_answered settled.waits val
  apply done
  unfold argument
  split
  · refine settled_congr settled ?_ rfl rfl rfl settled.valid settled.pending
    split
    · exact (flags_ctrl _).2.2.1
    · exact (flags_ctrl _).2.2.2
  split
  · exact settled_congr settled rfl rfl rfl rfl settled.valid settled.pending
  split
  · next toAux =>
    have idle : sc.awaits = false := by
      apply decide_eq_false
      apply not_not_intro
      apply settled.pending
      rw [toAux]
      decide
    exact poll_settles (decide_eq_true (answered false).1) idle (answered false).2 settled.valid
  split
  · exact queues_settled (queue_data_queues _ _) settled
  split
  · next outbuf =>
    have idle : sc.awaits = false := by
      apply decide_eq_false
      apply not_not_intro
      apply settled.pending
      rw [outbuf]
      decide
    exact aux_poll_settles (decide_eq_true (answered true).1) idle (answered true).2 settled.valid
  split
  · exact settled_congr settled rfl rfl rfl rfl settled.valid settled.pending
  · exact settled

theorem data_out_iff (settled : Settled sc) (eax : BitVec 32) :
    (Truthful (dataOut sc eax) ↔ (hasFlag sc.status kbdsCtrlFlag = false →
        ¬ (sc.awaits = true ∧ sc.moused = true))) ∧
      ((hasFlag sc.status kbdsCtrlFlag = false → ¬ (sc.awaits = true ∧ sc.moused = true)) →
        Settled (dataOut sc eax)) := by
  unfold dataOut
  cases ctrl : hasFlag sc.status kbdsCtrlFlag with
  | true =>
    have after := argument_settled settled (eax.setWidth 8)
    exact ⟨⟨nofun, fun _ => agrees_truthful after.agrees⟩, fun _ => after⟩
  | false =>
    have written : Settled { sc with ps2kbd := ps2kbdWrite sc.ps2kbd (eax.setWidth 8) } :=
      settled_congr settled rfl rfl rfl rfl (ps2kbd_write_valid settled.valid _) settled.pending
    have kept : (false = false → ¬ (sc.awaits = true ∧ sc.moused = true)) →
        Settled (poll { sc with ps2kbd := ps2kbdWrite sc.ps2kbd (eax.setWidth 8) }) :=
      fun clear => poll_settled written (clear rfl)
    refine ⟨⟨fun truthful _ both => ?_, fun clear => agrees_truthful (kept clear).agrees⟩, kept⟩
    have beyond : ¬ Truthful (poll { sc with ps2kbd := ps2kbdWrite sc.ps2kbd (eax.setWidth 8) }) :=
      poll_over_response both.1 both.2
    exact beyond truthful

theorem done_response (awaits : sc.awaits = true) (pending : sc.curcmd = 0)
    (waits : sc.ps2mouse.Waits) (valid : sc.ps2kbd.Valid) : Settled (commandDone sc) := by
  unfold commandDone
  rw [if_pos (of_decide_eq_true awaits)]
  apply queues_settled (assert_kbd_queues _)
  refine ⟨?_, waits, fun never => absurd pending never, valid⟩
  have flags : ∀ x : Byte,
      flagsOf ((x ||| kbdsKbdBufferFull) &&& ~~~kbdsAuxBufferFull) = (true, false) := by decide
  show flagsOf _ = (sc.awaits || sc.moused || sc.keyed, !sc.awaits && sc.moused)
  rw [flags, awaits]
  rfl

theorem done_flags (idle : sc.awaits = false) : (commandDone sc).due = sc.due ∧
    flagsOf (commandDone sc).status =
      if sc.moused = true ∧ hasFlag (sc.ram 0) kbdDisableAuxPort = false then (true, true)
      else if sc.keyed = true ∧ hasFlag (sc.ram 0) kbdDisableKbdPort = false then
        (true, (flagsOf sc.status).2)
      else flagsOf sc.status := by
  have aux : ∀ t, (assertAuxIntr t).status = t.status ∧ (assertAuxIntr t).due = t.due := by
    intro t
    unfold assertAuxIntr
    split
    · exact ⟨rfl, rfl⟩
    · exact ⟨rfl, rfl⟩
  have kbd : ∀ t, (assertKbdIntr t).status = t.status ∧ (assertKbdIntr t).due = t.due := by
    intro t
    unfold assertKbdIntr
    split
    · exact ⟨rfl, rfl⟩
    · exact ⟨rfl, rfl⟩
  unfold commandDone
  rw [if_neg (of_decide_eq_false idle)]
  have moused : sc.moused = true ↔ 0 < sc.ps2mouse.fifocnt := decide_eq_true_iff
  have keyed : sc.keyed = true ↔ 0 < sc.kbd.num := decide_eq_true_iff
  by_cases first : sc.moused = true ∧ hasFlag (sc.ram 0) kbdDisableAuxPort = false
  · rw [if_pos first, if_pos ⟨moused.mp first.1, first.2⟩, (aux _).1, (aux _).2]
    exact ⟨rfl, flags_both _⟩
  · rw [if_neg first, if_neg fun both => first ⟨moused.mpr both.1, both.2⟩]
    by_cases second : sc.keyed = true ∧ hasFlag (sc.ram 0) kbdDisableKbdPort = false
    · rw [if_pos second, if_pos ⟨keyed.mp second.1, second.2⟩, (kbd _).1, (kbd _).2]
      exact ⟨rfl, flags_full _⟩
    · rw [if_neg second, if_neg fun both => second ⟨keyed.mpr both.1, both.2⟩]
      exact ⟨rfl, rfl⟩

theorem done_dropped (idle : sc.awaits = false) (flags : flagsOf sc.status = (true, false)) :
    Truthful (commandDone sc) ↔
      if sc.moused = true then hasFlag (sc.ram 0) kbdDisableAuxPort = false
      else sc.keyed = true := by
  obtain ⟨due, after⟩ := done_flags idle
  rw [truthful_iff, due, after, flags, Atkbdc.due, idle]
  cases sc.moused <;> cases sc.keyed <;> cases hasFlag (sc.ram 0) kbdDisableAuxPort <;>
    cases hasFlag (sc.ram 0) kbdDisableKbdPort <;> decide

theorem done_agrees (idle : sc.awaits = false) (agrees : Agrees sc) : Agrees (commandDone sc) := by
  obtain ⟨due, after⟩ := done_flags idle
  unfold Agrees at agrees ⊢
  rw [due, after, agrees, Atkbdc.due, idle]
  cases sc.moused <;> cases sc.keyed <;> cases hasFlag (sc.ram 0) kbdDisableAuxPort <;>
    cases hasFlag (sc.ram 0) kbdDisableKbdPort <;> decide

theorem truthful_agrees (truthful : Truthful sc)
    (aux : (flagsOf sc.status).1 = true ∨ (flagsOf sc.status).2 = sc.due.2) : Agrees sc := by
  obtain ⟨full, second⟩ := (truthful_iff sc).mp truthful
  exact Prod.ext full (aux.elim second fun same => same)

theorem done_same (sc : Atkbdc) : (commandDone sc).ps2mouse = sc.ps2mouse ∧
    (commandDone sc).ctrlbyte = sc.ctrlbyte ∧ (commandDone sc).curcmd = sc.curcmd ∧
      (commandDone sc).ps2kbd = sc.ps2kbd := by
  unfold commandDone assertKbdIntr assertAuxIntr
  split
  · split
    · exact ⟨rfl, rfl, rfl, rfl⟩
    · exact ⟨rfl, rfl, rfl, rfl⟩
  · split
    · split
      · exact ⟨rfl, rfl, rfl, rfl⟩
      · exact ⟨rfl, rfl, rfl, rfl⟩
    · split
      · split
        · exact ⟨rfl, rfl, rfl, rfl⟩
        · exact ⟨rfl, rfl, rfl, rfl⟩
      · exact ⟨rfl, rfl, rfl, rfl⟩

theorem done_settled (agrees : Agrees (commandDone sc)) (waits : sc.ps2mouse.Waits)
    (pending : sc.curcmd ≠ 0 → sc.ctrlbyte = 0) (valid : sc.ps2kbd.Valid) :
    Settled (commandDone sc) := by
  obtain ⟨ps2mouse, ctrlbyte, curcmd, ps2kbd⟩ := done_same sc
  refine ⟨agrees, ?_, ?_, ?_⟩
  · rw [ps2mouse]
    exact waits
  · rw [curcmd, ctrlbyte]
    exact pending
  · rw [ps2kbd]
    exact valid

/-- The status is truthful under a condition, and then all else holds too. -/
structure Decided (t : Atkbdc) (kept : Prop) : Prop where
  truthful : Truthful t ↔ kept
  after : Truthful t → Settled t

theorem decided_settled {kept : Prop} (after : Settled t) (holds : kept) : Decided t kept :=
  ⟨⟨fun _ => holds, fun _ => agrees_truthful after.agrees⟩, fun _ => after⟩

theorem decided_congr {kept kept' : Prop} (decided : Decided t kept) (same : kept ↔ kept') :
    Decided t kept' :=
  ⟨decided.truthful.trans same, decided.after⟩

theorem dropped_decided (idle : sc.awaits = false) (dropped : flagsOf sc.status = (true, false))
    (waits : sc.ps2mouse.Waits) (pending : sc.curcmd ≠ 0 → sc.ctrlbyte = 0) (valid : sc.ps2kbd.Valid) :
    Decided (commandDone sc)
      (if sc.moused = true then hasFlag (sc.ram 0) kbdDisableAuxPort = false else sc.keyed = true) := by
  refine ⟨done_dropped idle dropped, fun truthful => ?_⟩
  have full : (flagsOf (commandDone sc).status).1 = true := by
    rw [(done_flags idle).2, dropped]
    split
    · rfl
    · split <;> rfl
  exact done_settled (truthful_agrees truthful (.inl full)) waits pending valid

theorem plain_command (settled : Settled sc) {t : Atkbdc} (flags : flagsOf t.status = flagsOf sc.status)
    (ctrlbyte : t.ctrlbyte = 0) (moused : t.moused = sc.moused) (kbd : t.kbd = sc.kbd)
    (waits : t.ps2mouse.Waits) (valid : t.ps2kbd.Valid) :
    Decided (commandDone t) (sc.awaits = true →
      if sc.moused = true then hasFlag (t.ram 0) kbdDisableAuxPort = false else sc.keyed = true) := by
  have idle : t.awaits = false := decide_eq_false (not_not_intro ctrlbyte)
  have keyed : t.keyed = sc.keyed := by
    rw [Atkbdc.keyed, kbd, ← Atkbdc.keyed]
  cases awaits : sc.awaits with
  | false =>
    have agrees : Agrees t := by
      unfold Agrees
      rw [flags, settled.agrees, Atkbdc.due, Atkbdc.due, idle, moused, keyed, awaits]
    exact decided_settled (done_settled (done_agrees idle agrees) waits (fun _ => ctrlbyte) valid) nofun
  | true =>
    have dropped : flagsOf t.status = (true, false) := by
      rw [flags, settled.agrees, Atkbdc.due, awaits]
      rfl
    have decided := dropped_decided idle dropped waits (fun _ => ctrlbyte) valid
    rw [moused, keyed] at decided
    exact decided_congr decided ⟨fun kept _ => kept, fun kept => kept rfl⟩

theorem response_nonzero {cmd c : BitVec 32} (some_ : response sc cmd = some c) : c ≠ 0 := by
  have flagged : ∀ x : BitVec 32, ctrlCmdFlag ||| x ≠ 0 := by
    intro x zero
    have bit := congrArg (fun b : BitVec 32 => b.getLsbD 15) zero
    simp [ctrlCmdFlag] at bit
  unfold response at some_
  split at some_
  · cases some_
    exact flagged _
  split at some_
  · cases some_
    exact flagged _
  split at some_
  · cases some_
    exact flagged _
  split at some_
  · cases some_
    exact flagged _
  split at some_
  · cases some_
    exact flagged _
  · cases some_

section
variable (settled : Settled sc)
include settled

theorem enable_kbd_command : Decided (commandDone (enableKbdPort (commandBegun sc)))
      (sc.awaits = true → sc.moused = true ∨ sc.keyed = true ∨ sc.yields = true) := by
  generalize begun : ({ (commandBegun sc).ram0
      ((commandBegun sc).ram 0 &&& ~~~kbdDisableKbdPort) with
    status := if 0 < sc.kbd.num then (commandBegun sc).status ||| kbdsKbdBufferFull
      else (commandBegun sc).status } : Atkbdc) = w
  have whole : enableKbdPort (commandBegun sc) = poll w := by
    rw [← begun]
    rfl
  have idle : w.awaits = false := by
    rw [← begun]
    rfl
  have moused : w.moused = sc.moused := by
    rw [← begun]
    rfl
  have keyed : w.keyed = sc.keyed := by
    rw [← begun]
    rfl
  have waits : w.ps2mouse.Waits := by
    rw [← begun]
    exact settled.waits
  have valid : w.ps2kbd.Valid := by
    rw [← begun]
    exact settled.valid
  have pending : w.curcmd ≠ 0 → w.ctrlbyte = 0 := by
    rw [← begun]
    exact fun _ => rfl
  have yields : w.yields = sc.yields := by
    have same : ∀ x : Byte, hasFlag (x &&& ~~~kbdDisableKbdPort) kbdTranslation =
        hasFlag x kbdTranslation := by decide
    have translates : w.translates = sc.translates := by
      rw [← begun]
      show hasFlag (Function.update sc.ram 0 (sc.ram 0 &&& ~~~kbdDisableKbdPort) 0) _ = _
      exact same _
    have bytes : w.ps2kbd = sc.ps2kbd := by
      rw [← begun]
      rfl
    rw [Atkbdc.yields, translates, bytes, ← Atkbdc.yields]
  have flags : flagsOf w.status =
      ((flagsOf sc.status).1 || sc.keyed, (flagsOf sc.status).2) := by
    rw [← begun]
    split
    · next some_ =>
      have full : sc.keyed = true := decide_eq_true some_
      rw [flags_full, full, Bool.or_true]
      exact congrArg (fun x => (true, x)) (congrArg Prod.snd (flags_ctrl sc.status).1)
    · next none_ =>
      have empty : sc.keyed = false := decide_eq_false none_
      rw [empty, Bool.or_false]
      exact (flags_ctrl sc.status).1
  rw [whole]
  have still : (poll w).awaits = false := by
    have aux : (auxPoll w).awaits = w.awaits := by
      cases on : w.moused with
      | true => exact (aux_poll_flags on).2
      | false => rw [aux_poll_empty on]
    exact (queues_awaits (kbd_read_queues _)).trans (aux.trans idle)
  have done : Settled (poll w) → Settled (commandDone (poll w)) := fun after =>
    done_settled (done_agrees still after.agrees) after.waits after.pending after.valid
  cases on : sc.moused with
  | true =>
    exact decided_settled (done (poll_settles (moused.trans on) idle waits valid)) fun _ => .inl rfl
  | false =>
    have unmoused := moused.trans on
    cases awaits : sc.awaits with
    | false =>
      have agrees : Agrees w := by
        unfold Agrees
        rw [flags, settled.agrees, Atkbdc.due, Atkbdc.due, idle, unmoused, keyed, awaits, on]
        cases sc.keyed <;> rfl
      refine decided_settled (done (poll_settled ⟨agrees, waits, pending, valid⟩ fun both => ?_)) nofun
      exact absurd (idle.symm.trans both.1) Bool.false_ne_true
    | true =>
      have single : poll w = kbdRead w := by
        unfold poll
        rw [aux_poll_empty unmoused]
      rw [single] at still ⊢
      have queues := kbd_read_queues w
      obtain ⟨q, after, -⟩ := queues.queued
      have dropped : flagsOf (kbdRead w).status = (true, false) := by
        rw [after, flags, settled.agrees, Atkbdc.due, awaits]
        rfl
      have decided := dropped_decided still dropped (queues.ps2mouse ▸ waits)
        (by rw [queues.curcmd, queues.ctrlbyte]; exact pending) (queues.valid valid)
      rw [queues_moused queues, unmoused, if_neg Bool.false_ne_true, kbd_read_keyed valid, keyed,
        yields] at decided
      refine decided_congr decided ⟨fun kept _ => .inr kept, fun kept => ?_⟩
      exact (kept rfl).resolve_left Bool.false_ne_true

theorem disable_aux_command : Decided (commandDone (disableAuxPort (commandBegun sc)))
      (¬ (sc.keyed = true ∧ hasFlag (sc.ram 0) kbdDisableKbdPort = true)) := by
  have idle : (disableAuxPort (commandBegun sc)).awaits = false := rfl
  have flags : flagsOf (disableAuxPort (commandBegun sc)).status = (false, false) := flags_none _
  have unmoused : (disableAuxPort (commandBegun sc)).moused = false := rfl
  have keyed : (disableAuxPort (commandBegun sc)).keyed = sc.keyed := rfl
  have port : hasFlag ((disableAuxPort (commandBegun sc)).ram 0) kbdDisableKbdPort =
      hasFlag (sc.ram 0) kbdDisableKbdPort := by
    have other : ∀ x : Byte, hasFlag (x ||| kbdDisableAuxPort) kbdDisableKbdPort =
        hasFlag x kbdDisableKbdPort := by decide
    show hasFlag (Function.update sc.ram 0 (sc.ram 0 ||| kbdDisableAuxPort) 0) _ = _
    exact other _
  obtain ⟨due, after⟩ := done_flags idle
  have dued : (commandDone (disableAuxPort (commandBegun sc))).due = (sc.keyed, false) := by
    rw [due, Atkbdc.due, idle, unmoused, keyed]
    rfl
  have flagged : flagsOf (commandDone (disableAuxPort (commandBegun sc))).status =
      (sc.keyed && !hasFlag (sc.ram 0) kbdDisableKbdPort, false) := by
    rw [after, unmoused, keyed, port, flags]
    cases sc.keyed <;> cases hasFlag (sc.ram 0) kbdDisableKbdPort <;> rfl
  have aux : (flagsOf (commandDone (disableAuxPort (commandBegun sc))).status).2 =
      (commandDone (disableAuxPort (commandBegun sc))).due.2 := by
    rw [flagged, dued]
  refine ⟨?_, fun truthful => ?_⟩
  · rw [truthful_iff, flagged, dued]
    cases sc.keyed <;> cases hasFlag (sc.ram 0) kbdDisableKbdPort <;> decide
  · exact done_settled (truthful_agrees truthful (.inr aux)) settled.waits (fun _ => rfl) settled.valid

theorem enable_aux_command : Decided (commandDone (enableAuxPort (commandBegun sc)))
      (sc.awaits = true → sc.moused = true ∨ sc.keyed = true) := by
  have idle : (enableAuxPort (commandBegun sc)).awaits = false := rfl
  have moused : (enableAuxPort (commandBegun sc)).moused = sc.moused := rfl
  cases on : sc.moused with
  | true =>
    have flags : flagsOf (enableAuxPort (commandBegun sc)).status = (true, true) := by
      unfold enableAuxPort
      dsimp only
      rw [if_pos]
      · exact flags_both _
      · exact of_decide_eq_true on
    have agrees : Agrees (enableAuxPort (commandBegun sc)) := by
      unfold Agrees
      rw [flags, Atkbdc.due, idle, moused, on]
      rfl
    exact decided_settled (done_settled (done_agrees idle agrees) settled.waits (fun _ => rfl)
      settled.valid) fun _ => .inl rfl
  | false =>
    have flags : flagsOf (enableAuxPort (commandBegun sc)).status = flagsOf sc.status := by
      unfold enableAuxPort
      dsimp only
      rw [if_neg]
      · exact (flags_ctrl sc.status).1
      · exact of_decide_eq_false on
    have decided := plain_command settled flags rfl moused rfl settled.waits settled.valid
    rw [on, if_neg Bool.false_ne_true] at decided
    exact decided_congr decided (forall_congr' fun _ => (or_iff_right Bool.false_ne_true).symm)

theorem command_iff (cmd : BitVec 32) :
    Decided (commandDone (command (commandBegun sc) cmd)) (CommandKept sc cmd) := by
  have same : response (commandBegun sc) cmd = response sc cmd := rfl
  have flags : flagsOf (commandBegun sc).status = flagsOf sc.status := (flags_ctrl sc.status).1
  unfold command CommandKept
  rw [same]
  cases has : response sc cmd with
  | some c =>
    have awaits : ({ commandBegun sc with ctrlbyte := c } : Atkbdc).awaits = true :=
      decide_eq_true (response_nonzero has)
    exact decided_settled (done_response awaits rfl settled.waits settled.valid) (.inl rfl)
  | none =>
    have no : ¬ ((none : Option (BitVec 32)).isSome = true) := Bool.false_ne_true
    rw [or_iff_right no]
    by_cases takes : takesArgument cmd = true
    · have others : cmd ≠ kbdcDisableAuxPort ∧ cmd ≠ kbdcEnableAuxPort ∧
          cmd ≠ kbdcEnableKbdPort := by
        obtain rfl | rfl | rfl | rfl | rfl := of_decide_eq_true takes
        all_goals decide
      rw [if_pos takes, if_neg others.1, if_neg others.2.1, if_neg others.2.2]
      exact @plain_command sc settled { commandBegun sc with curcmd := cmd } flags rfl rfl rfl
        settled.waits settled.valid
    · rw [if_neg takes]
      by_cases disableKbd : cmd = kbdcDisableKbdPort
      · subst disableKbd
        have port : hasFlag (((commandBegun sc).ram0
            ((commandBegun sc).ram 0 ||| kbdDisableKbdPort)).ram 0) kbdDisableAuxPort =
              hasFlag (sc.ram 0) kbdDisableAuxPort := by
          have other : ∀ x : Byte, hasFlag (x ||| kbdDisableKbdPort) kbdDisableAuxPort =
              hasFlag x kbdDisableAuxPort := by decide
          show hasFlag (Function.update sc.ram 0 (sc.ram 0 ||| kbdDisableKbdPort) 0) _ = _
          exact other _
        rw [← port]
        exact @plain_command sc settled ((commandBegun sc).ram0 _) flags rfl rfl rfl
          settled.waits settled.valid
      · rw [if_neg disableKbd]
        by_cases enableKbd : cmd = kbdcEnableKbdPort
        · subst enableKbd
          exact enable_kbd_command settled
        · rw [if_neg enableKbd]
          by_cases disableAux : cmd = kbdcDisableAuxPort
          · subst disableAux
            exact disable_aux_command settled
          · rw [if_neg disableAux, if_neg disableAux]
            by_cases enableAux : cmd = kbdcEnableAuxPort
            · subst enableAux
              exact enable_aux_command settled
            · rw [if_neg enableAux, if_neg enableAux, if_neg enableKbd]
              exact @plain_command sc settled (commandBegun sc) flags rfl rfl rfl
                settled.waits settled.valid

theorem pointer_iff (button : Byte) (x y : Int) :
    Decided (step sc (.pointer button x y)) (sc.ps2mouse.reporting = true → sc.awaits = false) := by
  have reports := reporting_same sc.ps2mouse button x y
  have waits : Ps2mouse.Waits { movementUpdate sc.ps2mouse x y with
      status := buttonsPressed (movementUpdate sc.ps2mouse x y).status button } := settled.waits
  unfold step ps2mouseEvent
  dsimp only
  rw [reports]
  cases on : sc.ps2mouse.reporting with
  | false =>
    exact decided_settled ⟨settled.agrees, settled.waits, settled.pending, settled.valid⟩ nofun
  | true =>
    rw [Bool.not_true, if_neg Bool.false_ne_true]
    generalize reported : movementGet { movementUpdate sc.ps2mouse x y with
      status := buttonsPressed (movementUpdate sc.ps2mouse x y).status button } = mouse
    have some_ : 0 < mouse.fifo.num := by
      rw [← reported]
      exact movement_get_some _
    have waiting : mouse.Waits := by
      rw [← reported]
      unfold Ps2mouse.Waits
      rw [(movement_get_same _).1]
      exact waits
    rw [decide_eq_true some_, if_pos rfl]
    show Decided (auxPoll { sc with ps2mouse := mouse }) _
    have moused : ({ sc with ps2mouse := mouse } : Atkbdc).moused = true := decide_eq_true some_
    have settles : sc.awaits = false → Settled (auxPoll { sc with ps2mouse := mouse }) := fun idle =>
      aux_poll_settles moused idle waiting settled.valid
    have idles : Truthful (auxPoll { sc with ps2mouse := mouse }) → sc.awaits = false := by
      intro truthful
      cases awaits : sc.awaits with
      | false => rfl
      | true =>
        obtain ⟨flags, same⟩ := aux_poll_flags moused
        exact absurd truthful (untruthful (same.trans awaits) flags)
    exact ⟨⟨fun truthful _ => idles truthful, fun kept => agrees_truthful (settles (kept rfl)).agrees⟩,
      fun truthful => settles (idles truthful)⟩

theorem key_settled (down : Bool) (keysym : BitVec 32) : Settled (step sc (.key down keysym)) := by
  have queued : Settled { sc with ps2kbd := (ps2kbdEvent sc.ps2kbd down keysym).1 } :=
    ⟨settled.agrees, settled.waits, settled.pending, ps2kbd_event_valid settled.valid _ _⟩
  unfold step
  dsimp only
  split
  · exact queues_settled (kbd_read_queues _) queued
  · exact queued

end

end

section
variable {sc : Atkbdc}

theorem quiet_iff {event : Event} (quiet : ∀ bytes eax, event ≠ .data true bytes eax) :
    StatusHolds sc event ↔ Truthful (step sc event) :=
  ⟨fun holds => holds.after, fun after =>
    ⟨after, fun bytes eax same _ => absurd same (quiet bytes eax)⟩⟩

theorem refused_iff (settled : Settled sc) {event : Event} (same : step sc event = sc)
    (kept : StatusKept sc event) (wide : ∀ bytes eax, event = .data true bytes eax → ¬ bytes ≤ 2) :
    (StatusHolds sc event ↔ StatusKept sc event) ∧ (StatusKept sc event → Settled (step sc event)) := by
  have after : StatusHolds sc event := by
    refine ⟨?_, fun bytes eax here narrow => absurd narrow (wide bytes eax here)⟩
    rw [same]
    exact agrees_truthful settled.agrees
  refine ⟨⟨fun _ => kept, fun _ => after⟩, fun _ => ?_⟩
  rw [same]
  exact settled

theorem data_iff (settled : Settled sc) (isIn : Bool) (bytes : Int) (eax : BitVec 32) :
    (StatusHolds sc (.data isIn bytes eax) ↔ StatusKept sc (.data isIn bytes eax)) ∧
      (StatusKept sc (.data isIn bytes eax) → Settled (step sc (.data isIn bytes eax))) := by
  by_cases wide : 2 < bytes
  · have narrow : ¬ bytes ≤ 2 := Int.not_le.mpr wide
    have same : step sc (.data isIn bytes eax) = sc := by
      show (atkbdcDataHandler sc isIn bytes eax).sc = sc
      rw [atkbdcDataHandler, if_pos wide]
    apply refused_iff settled same
    · cases isIn with
      | true => exact fun never => absurd never narrow
      | false => exact fun never => absurd never narrow
    · intro _ _ here
      cases here
      exact narrow
  · have narrow : bytes ≤ 2 := Int.not_lt.mp wide
    cases isIn with
    | true =>
      have next : step sc (.data true bytes eax) = (dataIn sc).sc := by
        show (atkbdcDataHandler sc true bytes eax).sc = _
        rw [atkbdcDataHandler, if_neg wide, if_pos rfl]
      have both := data_in_iff settled
      refine ⟨⟨fun holds _ => ?_, fun kept => ?_⟩, fun kept => ?_⟩
      · have after := holds.after
        rw [next] at after
        exact both.mp ⟨after, holds.read bytes eax rfl narrow⟩
      · obtain ⟨after, read⟩ := both.mpr (kept narrow)
        refine ⟨?_, fun _ _ _ _ => read⟩
        rw [next]
        exact after
      · rw [next]
        exact data_in_settled settled (kept narrow)
    | false =>
      have next : step sc (.data false bytes eax) = dataOut sc eax := by
        show (atkbdcDataHandler sc false bytes eax).sc = _
        rw [atkbdcDataHandler, if_neg wide, if_neg Bool.false_ne_true]
      obtain ⟨truthful, after⟩ := data_out_iff settled eax
      rw [quiet_iff fun _ _ never => (by cases never), next, truthful]
      exact ⟨⟨fun kept _ => kept, fun kept => kept narrow⟩, fun kept => after (kept narrow)⟩

theorem status_iff (settled : Settled sc) (isIn : Bool) (bytes : Int) (eax : BitVec 32) :
    (StatusHolds sc (.status isIn bytes eax) ↔ StatusKept sc (.status isIn bytes eax)) ∧
      (StatusKept sc (.status isIn bytes eax) → Settled (step sc (.status isIn bytes eax))) := by
  by_cases wide : bytes ≠ 1
  · have same : step sc (.status isIn bytes eax) = sc := by
      show (atkbdcStsCtlHandler sc isIn bytes eax).sc = sc
      rw [atkbdcStsCtlHandler, if_pos wide]
    apply refused_iff settled same
    · cases isIn with
      | true => trivial
      | false => exact fun single => absurd single wide
    · intro _ _ never
      cases never
  · have single : bytes = 1 := not_not.mp wide
    cases isIn with
    | true =>
      have same : step sc (.status true bytes eax) = sc := by
        show (atkbdcStsCtlHandler sc true bytes eax).sc = sc
        rw [atkbdcStsCtlHandler, if_neg wide, if_pos rfl]
      exact refused_iff settled same trivial nofun
    | false =>
      have next : step sc (.status false bytes eax) =
          commandDone (command (commandBegun sc) eax) := by
        show (atkbdcStsCtlHandler sc false bytes eax).sc = _
        rw [atkbdcStsCtlHandler, if_neg wide, if_neg Bool.false_ne_true]
      obtain ⟨truthful, after⟩ := command_iff settled eax
      rw [quiet_iff fun _ _ never => (by cases never), next, truthful]
      exact ⟨⟨fun kept _ => kept, fun kept => kept single⟩,
        fun kept => after (truthful.mpr (kept single))⟩

theorem step_iff (settled : Settled sc) (event : Event) :
    (StatusHolds sc event ↔ StatusKept sc event) ∧
      (StatusKept sc event → Settled (step sc event)) := by
  cases event with
  | data isIn bytes eax => exact data_iff settled isIn bytes eax
  | status isIn bytes eax => exact status_iff settled isIn bytes eax
  | key down keysym =>
    have after := key_settled settled down keysym
    rw [quiet_iff fun _ _ never => (by cases never)]
    exact ⟨⟨fun _ => trivial, fun _ => agrees_truthful after.agrees⟩, fun _ => after⟩
  | pointer button x y =>
    obtain ⟨truthful, after⟩ := pointer_iff settled button x y
    rw [quiet_iff fun _ _ never => (by cases never)]
    exact ⟨truthful, fun kept => after (truthful.mpr kept)⟩

theorem init_settled : Settled atkbdcInit where
  agrees := by
    unfold Agrees
    decide
  waits := .inl rfl
  pending _ := rfl
  valid := reset_valid

/-- The status register is truthful in exactly the runs all of whose steps meet the condition. -/
theorem status_truthful_iff (events : List Event) :
    Along step StatusHolds atkbdcInit events ↔ Along step StatusKept atkbdcInit events :=
  along_iff_of_invariant (fun _ event settled kept => (step_iff settled event).2 kept)
    (fun _ event settled => (step_iff settled event).1) events _ init_settled

theorem response_leaves_full : ¬ ∀ events, Along step StatusHolds atkbdcInit events := by
  intro every
  obtain ⟨-, read, -⟩ := every [.status false 1 0xaa, .data true 1 0]
  have stale : (flagsOf (step (step atkbdcInit (.status false 1 0xaa)) (.data true 1 0)).status).1 ≠
      (step (step atkbdcInit (.status false 1 0xaa)) (.data true 1 0)).due.1 := by decide
  exact stale ((truthful_iff _).mp read.after).1

end

end Kbdc
