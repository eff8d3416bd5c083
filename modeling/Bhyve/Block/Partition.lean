import Bhyve.Block.Queue

namespace BlockQueue
open StepRuns Function List

structure Partitioned (c : Ctxt) : Prop where
  once : ∀ be, c.freeq.count be + c.pendq.count be + c.busyq.count be = 1
  free : ∀ be ∈ c.freeq, (c.reqs be).beStatus = .free
  pend : ∀ be ∈ c.pendq, (c.reqs be).beStatus = .pend ∨ (c.reqs be).beStatus = .block
  busy : ∀ be ∈ c.busyq, (c.reqs be).beStatus = .busy ∨ (c.reqs be).beStatus = .done
  asked : ∀ be ∈ c.pendq, (c.reqs be).beReq.isSome = true

variable {c : Ctxt} {be tbe : Slot} {s : QueueState} {w worker : Worker} {proc : Worker → Proc}
  {p : Proc} {next : Nat}

section
variable (inv : Partitioned c)
include inv

theorem free_apart (member : be ∈ c.freeq) : be ∉ c.pendq ∧ be ∉ c.busyq := by
  have one := inv.once be
  have some := List.count_pos_iff.mpr member
  exact ⟨List.count_eq_zero.mp (by omega), List.count_eq_zero.mp (by omega)⟩

theorem pend_apart (member : be ∈ c.pendq) : be ∉ c.freeq ∧ be ∉ c.busyq := by
  have one := inv.once be
  have some := List.count_pos_iff.mpr member
  exact ⟨List.count_eq_zero.mp (by omega), List.count_eq_zero.mp (by omega)⟩

theorem busy_apart (member : be ∈ c.busyq) : be ∉ c.freeq ∧ be ∉ c.pendq := by
  have one := inv.once be
  have some := List.count_pos_iff.mpr member
  exact ⟨List.count_eq_zero.mp (by omega), List.count_eq_zero.mp (by omega)⟩

theorem pend_erase (be : Slot) : be ∉ c.pendq.erase be := by
  have one := inv.once be
  rw [← count_eq_zero, count_erase_self]
  omega

theorem busy_erase (be : Slot) : be ∉ c.busyq.erase be := by
  have one := inv.once be
  rw [← count_eq_zero, count_erase_self]
  omega

theorem not_in_flight (member : be ∈ c.pendq) : (c.reqs be).inFlight = false := by
  unfold BlockifElem.inFlight
  rcases inv.pend be member with status | status
  · rw [status]; rfl
  · rw [status]; rfl

theorem in_flight (member : be ∈ c.busyq) : (c.reqs be).inFlight = true := by
  unfold BlockifElem.inFlight
  rcases inv.busy be member with status | status
  · rw [status]; rfl
  · rw [status]; rfl

theorem without_pending (member : be ∈ c.pendq) :
    c.without be = { c with pendq := c.pendq.erase be } := by
  rw [Ctxt.without, not_in_flight inv member]
  rfl

theorem without_busy (member : be ∈ c.busyq) :
    c.without be = { c with busyq := c.busyq.erase be } := by
  rw [Ctxt.without, in_flight inv member]
  rfl

end

theorem without_pendq_subset (c : Ctxt) (be : Slot) : (c.without be).pendq ⊆ c.pendq := by
  unfold Ctxt.without
  split
  · exact List.Subset.refl _
  · exact erase_subset

theorem without_busyq_subset (c : Ctxt) (be : Slot) : (c.without be).busyq ⊆ c.busyq := by
  unfold Ctxt.without
  split
  · exact erase_subset
  · exact List.Subset.refl _

theorem without_outstanding (inv : Partitioned c) (member : be ∈ c.outstanding) (tbe : Slot) :
    tbe ∈ (c.without be).outstanding ↔ tbe ∈ c.outstanding ∧ tbe ≠ be := by
  unfold Ctxt.outstanding at member ⊢
  rw [mem_append] at member
  by_cases same : tbe = be
  · subst same
    rcases member with pending | running
    · rw [without_pending inv pending]
      simp [pend_erase inv tbe, (pend_apart inv pending).2]
    · rw [without_busy inv running]
      simp [busy_erase inv tbe, (busy_apart inv running).2]
  · rcases member with pending | running
    · rw [without_pending inv pending]
      simp [mem_erase_of_ne same, same]
    · rw [without_busy inv running]
      simp [mem_erase_of_ne same, same]

@[simp] theorem placed_same (c : Ctxt) (ticket : Nat) (breq : BlockifReq) (op : BlockOp)
    (be : Slot) : (placed c ticket breq op be).reqs be = queued c ticket breq op be :=
  update_self ..

theorem placed_other (c : Ctxt) (ticket : Nat) (breq : BlockifReq) (op : BlockOp)
    (apart : tbe ≠ be) : (placed c ticket breq op be).reqs tbe = c.reqs tbe :=
  update_of_ne apart ..

@[simp] theorem taken_same (c : Ctxt) (w : Worker) (be : Slot) :
    (taken c w be).reqs be = { c.reqs be with beStatus := .busy, beTid := some w } :=
  update_self ..

theorem taken_other (c : Ctxt) (w : Worker) (apart : tbe ≠ be) :
    (taken c w be).reqs tbe = c.reqs tbe :=
  update_of_ne apart ..

@[simp] theorem marked_done_same (c : Ctxt) (be : Slot) :
    (markedDone c be).reqs be = { c.reqs be with beStatus := .done } :=
  update_self ..

theorem marked_done_other (c : Ctxt) (apart : tbe ≠ be) : (markedDone c be).reqs tbe = c.reqs tbe :=
  update_of_ne apart ..

@[simp] theorem completed_same (c : Ctxt) (be : Slot) : (completed c be).reqs be =
      { c.reqs be with beTid := none, beStatus := .free, beReq := none } := by
  simp only [completed, released, update_self]

theorem completed_other (c : Ctxt) (apart : tbe ≠ be) : (completed c be).reqs tbe =
      if tbe ∈ (c.without be).pendq ∧ (c.reqs tbe).startsAt (c.reqs be).beBlock = true then
        { c.reqs tbe with beStatus := .pend } else c.reqs tbe := by
  simp only [completed, released, update_of_ne apart]

theorem completed_keeps (c : Ctxt) (apart : tbe ≠ be) :
    ((completed c be).reqs tbe).beReq = (c.reqs tbe).beReq ∧
      ((completed c be).reqs tbe).beTid = (c.reqs tbe).beTid ∧
      ((completed c be).reqs tbe).beBlock = (c.reqs tbe).beBlock ∧
      ((completed c be).reqs tbe).ticket = (c.reqs tbe).ticket := by
  rw [completed_other c apart]
  split
  · exact ⟨rfl, rfl, rfl, rfl⟩
  · exact ⟨rfl, rfl, rfl, rfl⟩

theorem moved_count {first : List Slot} (second : List Slot) (member : be ∈ first) (tbe : Slot) :
    (first.erase be).count tbe + (second ++ [be]).count tbe =
      first.count tbe + second.count tbe := by
  have present := List.count_pos_iff.mpr member
  simp only [count_append, count_erase, count_singleton]
  by_cases same : be = tbe
  · subst same
    simp only [beq_self_eq_true, ↓reduceIte]
    omega
  · simp only [beq_false_of_ne same, Bool.false_eq_true, ↓reduceIte]
    omega

section
variable (inv : Partitioned c)
include inv

theorem placed_partitioned (ticket : Nat) (breq : BlockifReq) (op : BlockOp)
    (member : be ∈ c.freeq) : Partitioned (placed c ticket breq op be) := by
  have outside := free_apart inv member
  constructor
  · intro tbe
    have one := inv.once tbe
    have same := moved_count c.pendq member tbe
    simp only [placed]
    omega
  · intro tbe inside
    have kept : tbe ∈ c.freeq := mem_of_mem_erase inside
    have apart : tbe ≠ be := by
      rintro rfl
      have one := inv.once tbe
      have gone : (c.freeq.erase tbe).count tbe = 0 := by
        rw [count_erase_self]
        omega
      exact List.count_eq_zero.mp gone inside
    rw [placed_other c ticket breq op apart]
    exact inv.free tbe kept
  · intro tbe inside
    rcases List.mem_append.mp inside with before | new
    · rw [placed_other c ticket breq op (ne_of_mem_of_not_mem before outside.1)]
      exact inv.pend tbe before
    · rw [List.mem_singleton.mp new, placed_same]
      by_cases blocked : c.endsAt breq.brOffset = true
      · exact Or.inr (if_pos blocked)
      · exact Or.inl (if_neg blocked)
  · intro tbe inside
    rw [placed_other c ticket breq op (ne_of_mem_of_not_mem inside outside.2)]
    exact inv.busy tbe inside
  · intro tbe inside
    rcases List.mem_append.mp inside with before | new
    · rw [placed_other c ticket breq op (ne_of_mem_of_not_mem before outside.1)]
      exact inv.asked tbe before
    · rw [List.mem_singleton.mp new, placed_same]
      rfl

theorem taken_partitioned (w : Worker) (member : be ∈ c.pendq) : Partitioned (taken c w be) := by
  have outside := pend_apart inv member
  have left : ∀ tbe ∈ c.pendq.erase be, tbe ≠ be := fun tbe inside =>
    ne_of_mem_of_not_mem inside (pend_erase inv be)
  constructor
  · intro tbe
    have one := inv.once tbe
    have same := moved_count c.busyq member tbe
    simp only [taken]
    omega
  · intro tbe inside
    rw [taken_other c w (ne_of_mem_of_not_mem inside outside.1)]
    exact inv.free tbe inside
  · intro tbe inside
    rw [taken_other c w (left tbe inside)]
    exact inv.pend tbe (mem_of_mem_erase inside)
  · intro tbe inside
    rcases List.mem_append.mp inside with before | new
    · rw [taken_other c w (ne_of_mem_of_not_mem before outside.2)]
      exact inv.busy tbe before
    · rw [List.mem_singleton.mp new, taken_same]
      exact Or.inl rfl
  · intro tbe inside
    rw [taken_other c w (left tbe inside)]
    exact inv.asked tbe (mem_of_mem_erase inside)

theorem marked_done_partitioned (member : be ∈ c.busyq) : Partitioned (markedDone c be) := by
  have outside := busy_apart inv member
  constructor
  · exact inv.once
  · intro tbe inside
    rw [marked_done_other c (ne_of_mem_of_not_mem inside outside.1)]
    exact inv.free tbe inside
  · intro tbe inside
    rw [marked_done_other c (ne_of_mem_of_not_mem inside outside.2)]
    exact inv.pend tbe inside
  · intro tbe inside
    by_cases same : tbe = be
    · rw [same, marked_done_same]
      exact Or.inr rfl
    · rw [marked_done_other c same]
      exact inv.busy tbe inside
  · intro tbe inside
    rw [marked_done_other c (ne_of_mem_of_not_mem inside outside.2)]
    exact inv.asked tbe inside

theorem completed_once (member : be ∈ c.outstanding) (tbe : Slot) :
    (completed c be).freeq.count tbe + (completed c be).pendq.count tbe +
      (completed c be).busyq.count tbe = 1 := by
  have one := inv.once tbe
  simp only [completed]
  rcases List.mem_append.mp member with pending | running
  · have same := moved_count c.freeq pending tbe
    rw [without_pending inv pending]
    dsimp only
    omega
  · have same := moved_count c.freeq running tbe
    rw [without_busy inv running]
    dsimp only
    omega

theorem completed_left (member : be ∈ c.outstanding) :
    be ∉ (c.without be).pendq ∧ be ∉ (c.without be).busyq := by
  have gone := without_outstanding inv member be
  simp only [Ctxt.outstanding, mem_append, ne_eq, not_true_eq_false, and_false,
    iff_false, not_or] at gone
  exact gone

theorem completed_partitioned (member : be ∈ c.outstanding) : Partitioned (completed c be) := by
  have left := completed_left inv member
  have outside : be ∉ c.freeq := by
    rcases List.mem_append.mp member with pending | running
    · exact (pend_apart inv pending).1
    · exact (busy_apart inv running).1
  constructor
  · exact completed_once inv member
  · intro tbe inside
    rcases List.mem_append.mp inside with before | new
    · have apart := ne_of_mem_of_not_mem before outside
      have elsewhere : tbe ∉ (c.without be).pendq := fun pending =>
        (free_apart inv before).1 (without_pendq_subset c be pending)
      rw [completed_other c apart, if_neg (fun met => elsewhere met.1)]
      exact inv.free tbe before
    · rw [List.mem_singleton.mp new, completed_same]
  · intro tbe inside
    rw [completed_other c (ne_of_mem_of_not_mem inside left.1)]
    split
    · exact Or.inl rfl
    · exact inv.pend tbe (without_pendq_subset c be inside)
  · intro tbe inside
    have running := without_busyq_subset c be inside
    have elsewhere : tbe ∉ (c.without be).pendq := fun pending =>
      (busy_apart inv running).2 (without_pendq_subset c be pending)
    rw [completed_other c (ne_of_mem_of_not_mem inside left.2),
      if_neg (fun met => elsewhere met.1)]
    exact inv.busy tbe running
  · intro tbe inside
    rw [(completed_keeps c (ne_of_mem_of_not_mem inside left.1)).1]
    exact inv.asked tbe (without_pendq_subset c be inside)

theorem complete_works (member : be ∈ c.outstanding) :
    blockifComplete c be = some (completed c be) := by
  apply if_pos
  constructor
  · rcases List.mem_append.mp member with pending | running
    · rw [not_in_flight inv pending]
      exact pending
    · rw [in_flight inv running]
      exact running
  · intro tbe inside
    exact inv.asked tbe (without_pendq_subset c be inside)

theorem enqueue_works (ticket : Nat) (breq : BlockifReq) (op : BlockOp)
    {rest : List Slot} (room : c.freeq = be :: rest) : blockifEnqueue c ticket breq op =
      some (placed c ticket breq op be, !c.endsAt breq.brOffset) := by
  have free := inv.free be (by rw [room]; exact mem_cons_self ..)
  simp [blockifEnqueue, room, free]

end

theorem first_pend_spec (c : Ctxt) (queue : List Slot)
    (pend : ∀ be ∈ queue, (c.reqs be).beStatus = .pend ∨ (c.reqs be).beStatus = .block) :
    (firstPend c queue = some none ∧ ∀ be ∈ queue, (c.reqs be).beStatus = .block) ∨
      ∃ be ∈ queue, firstPend c queue = some (some be) ∧ (c.reqs be).beStatus = .pend := by
  induction queue with
  | nil => exact Or.inl ⟨rfl, fun be inside => absurd inside not_mem_nil⟩
  | cons be rest ih =>
    rcases pend be (mem_cons_self ..) with status | status
    · exact Or.inr ⟨be, mem_cons_self .., by simp only [firstPend, status], status⟩
    · have scanned : firstPend c (be :: rest) = firstPend c rest := by
        simp only [firstPend, status]
      rw [scanned]
      rcases ih fun tbe inside => pend tbe (mem_cons_of_mem _ inside) with
        ⟨none, blocked⟩ | ⟨tbe, inside, found, ready⟩
      · refine Or.inl ⟨none, fun tbe inside => ?_⟩
        rcases List.mem_cons.mp inside with same | later
        · rw [same]
          exact status
        · exact blocked tbe later
      · exact Or.inr ⟨tbe, mem_cons_of_mem _ inside, found, ready⟩

/-- The busy elements are the ones the workers hold, each by the worker in be_tid. -/
structure Owned (c : Ctxt) (proc : Worker → Proc) : Prop where
  holds : ∀ w be, (proc w).slot = some be → be ∈ c.busyq ∧ (c.reqs be).beTid = some w
  served : ∀ be ∈ c.busyq, ∃ w, (proc w).slot = some be

structure Ticketed (c : Ctxt) (next : Nat) : Prop where
  issued : ∀ be ∈ c.outstanding, (c.reqs be).ticket < next
  distinct : ∀ be ∈ c.outstanding, ∀ tbe ∈ c.outstanding,
    (c.reqs be).ticket = (c.reqs tbe).ticket → be = tbe

def Untouched (s : QueueState) (ticket : Nat) : Prop :=
  ticket ∉ s.executed ∧ ticket ∉ s.calledBack ∧ ticket ∉ s.cancelled

structure Recorded (s : QueueState) : Prop where
  waiting : ∀ be ∈ s.ctxt.pendq, Untouched s (s.ctxt.reqs be).ticket
  started : ∀ w be, s.proc w = .started be → Untouched s (s.ctxt.reqs be).ticket
  loaded : ∀ w be ticket, s.proc w = .executed be ticket ∨ s.proc w = .finished be ticket →
    ticket = (s.ctxt.reqs be).ticket ∧ ticket ∉ s.cancelled
  once : s.executed.Nodup
  spared : ∀ ticket ∈ s.cancelled, ticket ∉ s.executed ∧ ticket ∉ s.calledBack
  past : ∀ ticket, ¬ Untouched s ticket → ticket < s.nextTicket

structure QueueInv (s : QueueState) : Prop where
  lists : Partitioned s.ctxt
  owned : Owned s.ctxt s.proc
  tickets : Ticketed s.ctxt s.nextTicket
  recorded : Recorded s
  going : s.aborted = false

theorem open_inv : QueueInv blockifOpen := by
  have every : ∀ be : Slot, (List.finRange blockifMaxreq).reverse.count be = 1 := by
    intro be
    rw [count_reverse]
    exact count_eq_one_of_mem (nodup_finRange _) (mem_finRange be)
  constructor
  · constructor
    · intro be
      simp [blockifOpen, every be]
    · exact fun be _ => rfl
    · exact fun be inside => absurd inside not_mem_nil
    · exact fun be inside => absurd inside not_mem_nil
    · exact fun be inside => absurd inside not_mem_nil
  · exact ⟨fun w be holds => by simp [blockifOpen, Proc.slot] at holds,
      fun be inside => absurd inside not_mem_nil⟩
  · exact ⟨fun be inside => absurd inside not_mem_nil,
      fun be inside => absurd inside not_mem_nil⟩
  · constructor
    · exact fun be inside => absurd inside not_mem_nil
    · exact fun w be started => by simp [blockifOpen] at started
    · exact fun w be ticket loaded => by simp [blockifOpen] at loaded
    · exact nodup_nil
    · exact fun ticket inside => absurd inside not_mem_nil
    · exact fun ticket touched => absurd ⟨not_mem_nil, not_mem_nil, not_mem_nil⟩ touched
  · rfl

theorem request_cases (inv : QueueInv s) (breq : BlockifReq) (op : BlockOp) :
    s.request breq op = s ∨
      ∃ be ∈ s.ctxt.freeq, s.request breq op =
        { s with ctxt := placed s.ctxt s.nextTicket breq op be, nextTicket := s.nextTicket + 1 } := by
  cases room : s.ctxt.freeq with
  | nil => exact Or.inl (if_pos room)
  | cons be rest =>
    refine Or.inr ⟨be, mem_cons_self .., ?_⟩
    have some : ¬ s.ctxt.freeq = [] := by simp [room]
    rw [QueueState.request, if_neg some, enqueue_works inv.lists _ _ _ room]

theorem dequeue_cases (inv : QueueInv s) (w : Worker) : s.dequeue w = s ∨
      ∃ be ∈ s.ctxt.pendq, s.proc w = .idle ∧ firstPend s.ctxt s.ctxt.pendq = some (some be) ∧
        (s.ctxt.reqs be).beStatus = .pend ∧
        s.dequeue w =
          { s with ctxt := taken s.ctxt w be, proc := update s.proc w (.started be) } := by
  cases at_ : s.proc w with
  | idle =>
    rcases first_pend_spec s.ctxt s.ctxt.pendq inv.lists.pend with
      ⟨none, _⟩ | ⟨be, inside, found, ready⟩
    · exact Or.inl (by simp only [QueueState.dequeue, at_, blockifDequeue, none])
    · exact Or.inr ⟨be, inside, rfl, found, ready,
        by simp only [QueueState.dequeue, at_, blockifDequeue, found]⟩
  | started be => exact Or.inl (by simp only [QueueState.dequeue, at_])
  | executed be ticket => exact Or.inl (by simp only [QueueState.dequeue, at_])
  | finished be ticket => exact Or.inl (by simp only [QueueState.dequeue, at_])
  | calledBack be => exact Or.inl (by simp only [QueueState.dequeue, at_])

theorem holds_outstanding (inv : QueueInv s) (holds : (s.proc w).slot = some be) :
    be ∈ s.ctxt.outstanding :=
  mem_append_right _ (inv.owned.holds w be holds).1

theorem complete_cases (inv : QueueInv s) (w : Worker) : s.complete w = s ∨
      ∃ be, s.proc w = .calledBack be ∧ s.complete w =
        { s with ctxt := completed s.ctxt be, proc := update s.proc w .idle } := by
  cases at_ : s.proc w with
  | calledBack be =>
    have member := holds_outstanding inv (show (s.proc w).slot = some be by rw [at_]; rfl)
    exact Or.inr ⟨be, rfl, by simp only [QueueState.complete, at_, complete_works inv.lists member]⟩
  | idle => exact Or.inl (by simp only [QueueState.complete, at_])
  | started be => exact Or.inl (by simp only [QueueState.complete, at_])
  | executed be ticket => exact Or.inl (by simp only [QueueState.complete, at_])
  | finished be ticket => exact Or.inl (by simp only [QueueState.complete, at_])

theorem cancel_cases (inv : QueueInv s) (address : Nat) :
    (∃ interrupting, s.cancel address = { s with interrupting := interrupting }) ∨
      ∃ be ∈ s.ctxt.pendq, findReq s.ctxt s.ctxt.pendq address = some be ∧ s.cancel address =
        { s with ctxt := completed s.ctxt be,
                 cancelled := s.cancelled ++ [(s.ctxt.reqs be).ticket] } := by
  cases found : findReq s.ctxt s.ctxt.pendq address with
  | some be =>
    have inside : be ∈ s.ctxt.pendq := mem_of_find?_eq_some found
    refine Or.inr ⟨be, inside, rfl, ?_⟩
    simp only [QueueState.cancel, found,
      complete_works inv.lists (mem_append_left _ inside : be ∈ s.ctxt.outstanding)]
  | none =>
    left
    simp only [QueueState.cancel, found]
    split
    · exact ⟨s.interrupting, rfl⟩
    · split
      · exact ⟨_, rfl⟩
      · exact ⟨s.interrupting, rfl⟩

theorem recheck_cases (s : QueueState) :
    ∃ interrupting, s.cancelRecheck = { s with interrupting := interrupting } := by
  unfold QueueState.cancelRecheck
  split
  · exact ⟨s.interrupting, rfl⟩
  · split
    · exact ⟨s.interrupting, rfl⟩
    · exact ⟨none, rfl⟩

theorem placed_owned (lists : Partitioned c) (owned : Owned c proc) (ticket : Nat)
    (breq : BlockifReq) (op : BlockOp) (member : be ∈ c.freeq) :
    Owned (placed c ticket breq op be) proc := by
  constructor
  · intro w held holds
    obtain ⟨running, tid⟩ := owned.holds w held holds
    have apart := ne_of_mem_of_not_mem running (free_apart lists member).2
    exact ⟨running, by rw [placed_other c ticket breq op apart]; exact tid⟩
  · exact owned.served

theorem taken_owned (lists : Partitioned c) (owned : Owned c proc) (idle : proc w = .idle)
    (member : be ∈ c.pendq) : Owned (taken c w be) (update proc w (.started be)) := by
  constructor
  · intro worker held holds
    by_cases same : worker = w
    · subst same
      rw [update_self] at holds
      obtain rfl : be = held := Option.some.inj holds
      exact ⟨mem_append_right _ (List.mem_singleton.mpr rfl), by rw [taken_same]⟩
    · rw [update_of_ne same] at holds
      obtain ⟨running, tid⟩ := owned.holds worker held holds
      have apart := ne_of_mem_of_not_mem running (pend_apart lists member).2
      exact ⟨mem_append_left _ running, by rw [taken_other c w apart]; exact tid⟩
  · intro held inside
    rcases List.mem_append.mp inside with running | new
    · obtain ⟨worker, holds⟩ := owned.served held running
      have apart : worker ≠ w := by
        rintro rfl
        rw [idle] at holds
        simp [Proc.slot] at holds
      exact ⟨worker, by rw [update_of_ne apart]; exact holds⟩
    · refine ⟨w, ?_⟩
      rw [update_self, List.mem_singleton.mp new]
      rfl

theorem moved_owned (owned : Owned c proc) (same : p.slot = (proc w).slot) :
    Owned c (update proc w p) := by
  have slots : ∀ worker, (update proc w p worker).slot = (proc worker).slot := by
    intro worker
    by_cases own : worker = w
    · rw [own, update_self, same]
    · rw [update_of_ne own]
  constructor
  · intro worker be holds
    exact owned.holds worker be ((slots worker).symm.trans holds)
  · intro be inside
    obtain ⟨worker, holds⟩ := owned.served be inside
    exact ⟨worker, (slots worker).trans holds⟩

theorem marked_done_owned (owned : Owned c proc) (be : Slot) : Owned (markedDone c be) proc := by
  constructor
  · intro w held holds
    obtain ⟨running, tid⟩ := owned.holds w held holds
    refine ⟨running, ?_⟩
    by_cases same : held = be
    · rw [same, marked_done_same]
      exact same ▸ tid
    · rw [marked_done_other c same]
      exact tid
  · exact owned.served

theorem holder_unique (owned : Owned c proc) (first : (proc w).slot = some be)
    (second : (proc worker).slot = some be) : worker = w := by
  have tid := (owned.holds w be first).2
  rw [(owned.holds worker be second).2] at tid
  exact Option.some.inj tid

theorem completed_busy_owned (lists : Partitioned c) (owned : Owned c proc)
    (holder : (proc w).slot = some be) : Owned (completed c be) (update proc w .idle) := by
  have running := (owned.holds w be holder).1
  have busyq : (completed c be).busyq = c.busyq.erase be := by
    simp only [completed, without_busy lists running]
  constructor
  · intro worker held holds
    by_cases same : worker = w
    · subst same
      simp [Proc.slot] at holds
    · rw [update_of_ne same] at holds
      obtain ⟨inside, tid⟩ := owned.holds worker held holds
      have apart : held ≠ be := fun eq => same (holder_unique owned holder (eq ▸ holds))
      rw [busyq, (completed_keeps c apart).2.1]
      exact ⟨(mem_erase_of_ne apart).mpr inside, tid⟩
  · intro held inside
    rw [busyq] at inside
    have apart := ne_of_mem_of_not_mem inside (busy_erase lists be)
    obtain ⟨worker, holds⟩ := owned.served held (mem_of_mem_erase inside)
    have other : worker ≠ w := by
      rintro rfl
      exact apart (Option.some.inj (holds.symm.trans holder))
    exact ⟨worker, by rw [update_of_ne other]; exact holds⟩

theorem completed_pending_owned (lists : Partitioned c) (owned : Owned c proc)
    (member : be ∈ c.pendq) : Owned (completed c be) proc := by
  have busyq : (completed c be).busyq = c.busyq := by
    simp only [completed, without_pending lists member]
  constructor
  · intro w held holds
    obtain ⟨running, tid⟩ := owned.holds w held holds
    have apart := ne_of_mem_of_not_mem running (pend_apart lists member).2
    rw [busyq, (completed_keeps c apart).2.1]
    exact ⟨running, tid⟩
  · rw [busyq]
    exact owned.served

theorem ticketed_of_subset {after : Ctxt} (tickets : Ticketed c next)
    (same : ∀ be ∈ after.outstanding, be ∈ c.outstanding ∧ (after.reqs be).ticket = (c.reqs be).ticket) :
    Ticketed after next := by
  constructor
  · intro be inside
    obtain ⟨before, kept⟩ := same be inside
    rw [kept]
    exact tickets.issued be before
  · intro be inside tbe other equal
    obtain ⟨before, kept⟩ := same be inside
    obtain ⟨beforeOther, keptOther⟩ := same tbe other
    rw [kept, keptOther] at equal
    exact tickets.distinct be before tbe beforeOther equal

theorem taken_ticket (c : Ctxt) (w : Worker) (be tbe : Slot) :
    ((taken c w be).reqs tbe).ticket = (c.reqs tbe).ticket := by
  by_cases same : tbe = be
  · rw [same, taken_same]
  · rw [taken_other c w same]

theorem taken_outstanding (member : be ∈ c.pendq) (inside : tbe ∈ (taken c w be).outstanding) :
    tbe ∈ c.outstanding := by
  simp only [taken, Ctxt.outstanding, mem_append, mem_singleton] at inside
  rcases inside with pending | running | same
  · exact mem_append_left _ (mem_of_mem_erase pending)
  · exact mem_append_right _ running
  · exact mem_append_left _ (same ▸ member)

theorem marked_done_ticket (c : Ctxt) (be tbe : Slot) :
    ((markedDone c be).reqs tbe).ticket = (c.reqs tbe).ticket := by
  by_cases same : tbe = be
  · rw [same, marked_done_same]
  · rw [marked_done_other c same]

theorem completed_ticketed (lists : Partitioned c) (tickets : Ticketed c next)
    (member : be ∈ c.outstanding) : Ticketed (completed c be) next := by
  apply ticketed_of_subset tickets
  intro tbe inside
  obtain ⟨before, apart⟩ := (without_outstanding lists member tbe).mp inside
  exact ⟨before, (completed_keeps c apart).2.2.2⟩

theorem placed_ticketed (lists : Partitioned c) (tickets : Ticketed c next) (breq : BlockifReq)
    (op : BlockOp) (member : be ∈ c.freeq) : Ticketed (placed c next breq op be) (next + 1) := by
  have outside : be ∉ c.outstanding := by
    intro inside
    rcases List.mem_append.mp inside with pending | running
    · exact (free_apart lists member).1 pending
    · exact (free_apart lists member).2 running
  have split : ∀ tbe ∈ (placed c next breq op be).outstanding,
      (tbe = be ∧ ((placed c next breq op be).reqs tbe).ticket = next) ∨
      (tbe ∈ c.outstanding ∧ ((placed c next breq op be).reqs tbe).ticket = (c.reqs tbe).ticket) := by
    intro tbe inside
    by_cases same : tbe = be
    · exact Or.inl ⟨same, by rw [same, placed_same]; rfl⟩
    · refine Or.inr ⟨?_, by rw [placed_other c next breq op same]⟩
      simp only [placed, Ctxt.outstanding, mem_append, mem_singleton] at inside ⊢
      rcases inside with (pending | eq) | running
      · exact Or.inl pending
      · exact absurd eq same
      · exact Or.inr running
  constructor
  · intro tbe inside
    rcases split tbe inside with ⟨_, eq⟩ | ⟨before, eq⟩
    · omega
    · have bound := tickets.issued tbe before
      omega
  · intro a inside b other equal
    rcases split a inside with ⟨first, eqA⟩ | ⟨beforeA, eqA⟩
    · rcases split b other with ⟨second, eqB⟩ | ⟨beforeB, eqB⟩
      · rw [first, second]
      · have bound := tickets.issued b beforeB
        omega
    · rcases split b other with ⟨second, eqB⟩ | ⟨beforeB, eqB⟩
      · have bound := tickets.issued a beforeA
        omega
      · exact tickets.distinct a beforeA b beforeB (by omega)

theorem ticket_ne (inv : QueueInv s) (first : be ∈ s.ctxt.outstanding)
    (second : tbe ∈ s.ctxt.outstanding) (apart : tbe ≠ be) :
    (s.ctxt.reqs tbe).ticket ≠ (s.ctxt.reqs be).ticket :=
  fun equal => apart (inv.tickets.distinct tbe second be first equal)

theorem pending_ne_held (inv : QueueInv s) (holds : (s.proc w).slot = some be)
    (pending : tbe ∈ s.ctxt.pendq) : tbe ≠ be :=
  ne_of_mem_of_not_mem pending (busy_apart inv.lists (inv.owned.holds w be holds).1).2

theorem held_ne_held (inv : QueueInv s) (holds : (s.proc w).slot = some be)
    (other : (s.proc worker).slot = some tbe) (apart : worker ≠ w) : tbe ≠ be := by
  rintro rfl
  exact apart (holder_unique inv.owned holds other)

theorem slot_of_loaded {ticket : Nat} (loaded : p = .executed be ticket ∨ p = .finished be ticket) :
    p.slot = some be := by
  rcases loaded with rfl | rfl
  · rfl
  · rfl

theorem moved_cases {q : Proc} (eq : update proc w p worker = q) :
    (worker = w ∧ p = q) ∨ (worker ≠ w ∧ proc worker = q) := by
  by_cases same : worker = w
  · subst same
    rw [update_self] at eq
    exact Or.inl ⟨rfl, eq⟩
  · rw [update_of_ne same] at eq
    exact Or.inr ⟨same, eq⟩

theorem moved_loaded {ticket : Nat}
    (loaded : update proc w p worker = .executed be ticket ∨ update proc w p worker = .finished be ticket) :
    (worker = w ∧ (p = .executed be ticket ∨ p = .finished be ticket)) ∨
      (worker ≠ w ∧ (proc worker = .executed be ticket ∨ proc worker = .finished be ticket)) := by
  rcases loaded with loaded | loaded
  · rcases moved_cases loaded with ⟨same, eq⟩ | ⟨apart, eq⟩
    · exact Or.inl ⟨same, Or.inl eq⟩
    · exact Or.inr ⟨apart, Or.inl eq⟩
  · rcases moved_cases loaded with ⟨same, eq⟩ | ⟨apart, eq⟩
    · exact Or.inl ⟨same, Or.inr eq⟩
    · exact Or.inr ⟨apart, Or.inr eq⟩

section
variable (inv : QueueInv s)
include inv

theorem request_inv (breq : BlockifReq) (op : BlockOp) : QueueInv (s.request breq op) := by
  rcases request_cases inv breq op with same | ⟨be, free, after⟩
  · rw [same]
    exact inv
  rw [after]
  have outside := free_apart inv.lists free
  have running : ∀ w tbe, (s.proc w).slot = some tbe → tbe ≠ be := fun w tbe holds =>
    ne_of_mem_of_not_mem (inv.owned.holds w tbe holds).1 outside.2
  refine ⟨placed_partitioned inv.lists _ _ _ free, placed_owned inv.lists inv.owned _ _ _ free,
    placed_ticketed inv.lists inv.tickets _ _ free, ?_, inv.going⟩
  constructor
  · intro tbe inside
    rcases List.mem_append.mp inside with before | new
    · simp only [placed_other s.ctxt _ breq op (ne_of_mem_of_not_mem before outside.1)]
      exact inv.recorded.waiting tbe before
    · simp only [List.mem_singleton.mp new, placed_same, queued]
      by_contra touched
      exact absurd (inv.recorded.past s.nextTicket touched) (Nat.lt_irrefl _)
  · intro w tbe started
    simp only [placed_other s.ctxt _ breq op (running w tbe (congrArg Proc.slot started))]
    exact inv.recorded.started w tbe started
  · intro w tbe ticket loaded
    simp only [placed_other s.ctxt _ breq op (running w tbe (slot_of_loaded loaded))]
    exact inv.recorded.loaded w tbe ticket loaded
  · exact inv.recorded.once
  · exact inv.recorded.spared
  · intro ticket touched
    exact Nat.lt_succ_of_lt (inv.recorded.past ticket touched)

theorem dequeue_inv (w : Worker) : QueueInv (s.dequeue w) := by
  rcases dequeue_cases inv w with same | ⟨be, pending, idle, _, _, after⟩
  · rw [same]
    exact inv
  rw [after]
  refine ⟨taken_partitioned inv.lists w pending, taken_owned inv.lists inv.owned idle pending,
    ticketed_of_subset inv.tickets fun tbe inside =>
      ⟨taken_outstanding pending inside, taken_ticket s.ctxt w be tbe⟩, ?_, inv.going⟩
  constructor
  · intro tbe inside
    simp only [taken_ticket]
    exact inv.recorded.waiting tbe (mem_of_mem_erase inside)
  · intro worker tbe started
    simp only [taken_ticket]
    rcases moved_cases started with ⟨_, new⟩ | ⟨_, before⟩
    · obtain rfl := Proc.started.inj new
      exact inv.recorded.waiting be pending
    · exact inv.recorded.started worker tbe before
  · intro worker tbe ticket loaded
    simp only [taken_ticket]
    rcases moved_loaded loaded with ⟨_, new⟩ | ⟨_, before⟩
    · simp at new
    · exact inv.recorded.loaded worker tbe ticket before
  · exact inv.recorded.once
  · exact inv.recorded.spared
  · exact inv.recorded.past

theorem execute_inv (w : Worker) : QueueInv (s.execute w) := by
  unfold QueueState.execute
  split
  case h_2 => exact inv
  rename_i be at_
  have holds : (s.proc w).slot = some be := congrArg Proc.slot at_
  have member := holds_outstanding inv holds
  obtain ⟨notExecuted, notCalled, notCancelled⟩ := inv.recorded.started w be at_
  refine ⟨inv.lists, moved_owned inv.owned holds.symm, inv.tickets, ?_, inv.going⟩
  constructor
  · intro tbe pending
    obtain ⟨executed, rest⟩ := inv.recorded.waiting tbe pending
    have other := ticket_ne inv member (mem_append_left _ pending)
      (pending_ne_held inv holds pending)
    exact ⟨by simp [executed, other], rest⟩
  · intro worker tbe started
    rcases moved_cases started with ⟨_, new⟩ | ⟨apart, before⟩
    · simp at new
    · have held : (s.proc worker).slot = some tbe := congrArg Proc.slot before
      obtain ⟨executed, rest⟩ := inv.recorded.started worker tbe before
      have other := ticket_ne inv member (holds_outstanding inv held)
        (held_ne_held inv holds held apart)
      exact ⟨by simp [executed, other], rest⟩
  · intro worker tbe ticket loaded
    rcases moved_loaded loaded with ⟨_, new | new⟩ | ⟨_, before⟩
    · obtain ⟨rfl, rfl⟩ := Proc.executed.inj new
      exact ⟨rfl, notCancelled⟩
    · simp at new
    · exact inv.recorded.loaded worker tbe ticket before
  · rw [nodup_append]
    refine ⟨inv.recorded.once, nodup_singleton _, ?_⟩
    intro ticket before new inside equal
    rw [List.mem_singleton.mp inside] at equal
    exact notExecuted (equal ▸ before)
  · intro ticket cancelled
    obtain ⟨executed, called⟩ := inv.recorded.spared ticket cancelled
    have other : ticket ≠ (s.ctxt.reqs be).ticket := ne_of_mem_of_not_mem cancelled notCancelled
    exact ⟨by simp [executed, other], called⟩
  · intro ticket touched
    by_cases same : ticket = (s.ctxt.reqs be).ticket
    · rw [same]
      exact inv.tickets.issued be member
    · apply inv.recorded.past ticket
      rintro ⟨executed, rest⟩
      exact touched ⟨by simp [executed, same], rest⟩

theorem mark_done_inv (w : Worker) : QueueInv (s.markDone w) := by
  unfold QueueState.markDone
  split
  case h_2 => exact inv
  rename_i be loadedTicket at_
  have holds : (s.proc w).slot = some be := congrArg Proc.slot at_
  have running := (inv.owned.holds w be holds).1
  refine ⟨marked_done_partitioned inv.lists running,
    moved_owned (marked_done_owned inv.owned be) holds.symm,
    ticketed_of_subset inv.tickets fun tbe inside => ⟨inside, marked_done_ticket s.ctxt be tbe⟩,
    ?_, inv.going⟩
  constructor
  · intro tbe pending
    simp only [marked_done_ticket]
    exact inv.recorded.waiting tbe pending
  · intro worker tbe started
    simp only [marked_done_ticket]
    rcases moved_cases started with ⟨_, new⟩ | ⟨_, before⟩
    · simp at new
    · exact inv.recorded.started worker tbe before
  · intro worker tbe ticket loaded
    simp only [marked_done_ticket]
    rcases moved_loaded loaded with ⟨_, new | new⟩ | ⟨_, before⟩
    · simp at new
    · obtain ⟨rfl, rfl⟩ := Proc.finished.inj new
      exact inv.recorded.loaded w be loadedTicket (Or.inl at_)
    · exact inv.recorded.loaded worker tbe ticket before
  · exact inv.recorded.once
  · exact inv.recorded.spared
  · exact inv.recorded.past

theorem callback_inv (w : Worker) : QueueInv (s.callback w) := by
  unfold QueueState.callback
  split
  case h_2 => exact inv
  rename_i be done at_
  have holds : (s.proc w).slot = some be := congrArg Proc.slot at_
  have member := holds_outstanding inv holds
  obtain ⟨own, notCancelled⟩ := inv.recorded.loaded w be done (Or.inr at_)
  refine ⟨inv.lists, moved_owned inv.owned holds.symm, inv.tickets, ?_, inv.going⟩
  constructor
  · intro tbe pending
    obtain ⟨executed, called, cancelled⟩ := inv.recorded.waiting tbe pending
    have other := ticket_ne inv member (mem_append_left _ pending)
      (pending_ne_held inv holds pending)
    exact ⟨executed, by simp [called, own, other], cancelled⟩
  · intro worker tbe started
    rcases moved_cases started with ⟨_, new⟩ | ⟨apart, before⟩
    · simp at new
    · have held : (s.proc worker).slot = some tbe := congrArg Proc.slot before
      obtain ⟨executed, called, cancelled⟩ := inv.recorded.started worker tbe before
      have other := ticket_ne inv member (holds_outstanding inv held)
        (held_ne_held inv holds held apart)
      exact ⟨executed, by simp [called, own, other], cancelled⟩
  · intro worker tbe ticket loaded
    rcases moved_loaded loaded with ⟨_, new⟩ | ⟨_, before⟩
    · simp at new
    · exact inv.recorded.loaded worker tbe ticket before
  · exact inv.recorded.once
  · intro ticket cancelled
    obtain ⟨executed, called⟩ := inv.recorded.spared ticket cancelled
    have other : ticket ≠ done := ne_of_mem_of_not_mem cancelled notCancelled
    exact ⟨executed, by simp [called, other]⟩
  · intro ticket touched
    by_cases same : ticket = done
    · rw [same, own]
      exact inv.tickets.issued be member
    · apply inv.recorded.past ticket
      rintro ⟨executed, called, cancelled⟩
      exact touched ⟨executed, by simp [called, same], cancelled⟩

theorem complete_inv (w : Worker) : QueueInv (s.complete w) := by
  rcases complete_cases inv w with same | ⟨be, at_, after⟩
  · rw [same]
    exact inv
  rw [after]
  have holds : (s.proc w).slot = some be := congrArg Proc.slot at_
  have member := holds_outstanding inv holds
  refine ⟨completed_partitioned inv.lists member, completed_busy_owned inv.lists inv.owned holds,
    completed_ticketed inv.lists inv.tickets member, ?_, inv.going⟩
  constructor
  · intro tbe inside
    have pending := without_pendq_subset s.ctxt be inside
    simp only [(completed_keeps s.ctxt (pending_ne_held inv holds pending)).2.2.2]
    exact inv.recorded.waiting tbe pending
  · intro worker tbe started
    rcases moved_cases started with ⟨_, new⟩ | ⟨apart, before⟩
    · simp at new
    · have other := held_ne_held inv holds (congrArg Proc.slot before) apart
      simp only [(completed_keeps s.ctxt other).2.2.2]
      exact inv.recorded.started worker tbe before
  · intro worker tbe ticket loaded
    rcases moved_loaded loaded with ⟨_, new⟩ | ⟨apart, before⟩
    · simp at new
    · have other := held_ne_held inv holds (slot_of_loaded before) apart
      simp only [(completed_keeps s.ctxt other).2.2.2]
      exact inv.recorded.loaded worker tbe ticket before
  · exact inv.recorded.once
  · exact inv.recorded.spared
  · exact inv.recorded.past

theorem interrupt_inv (interrupting : Option Slot) :
    QueueInv { s with interrupting := interrupting } :=
  ⟨inv.lists, inv.owned, inv.tickets,
    ⟨inv.recorded.waiting, inv.recorded.started, inv.recorded.loaded, inv.recorded.once,
      inv.recorded.spared, inv.recorded.past⟩, inv.going⟩

theorem cancel_inv (address : Nat) : QueueInv (s.cancel address) := by
  rcases cancel_cases inv address with ⟨interrupting, after⟩ | ⟨be, pending, _, after⟩
  · rw [after]
    exact interrupt_inv inv interrupting
  rw [after]
  have member : be ∈ s.ctxt.outstanding := mem_append_left _ pending
  obtain ⟨notExecuted, notCalled, notCancelled⟩ := inv.recorded.waiting be pending
  have held : ∀ w tbe, (s.proc w).slot = some tbe → tbe ≠ be := fun w tbe holds =>
    (pending_ne_held inv holds pending).symm
  have other : ∀ w tbe, (s.proc w).slot = some tbe →
      (s.ctxt.reqs tbe).ticket ≠ (s.ctxt.reqs be).ticket := fun w tbe holds =>
    ticket_ne inv member (holds_outstanding inv holds) (held w tbe holds)
  refine ⟨completed_partitioned inv.lists member, completed_pending_owned inv.lists inv.owned pending,
    completed_ticketed inv.lists inv.tickets member, ?_, inv.going⟩
  constructor
  · intro tbe inside
    have before := without_pendq_subset s.ctxt be inside
    have apart := ne_of_mem_of_not_mem inside (completed_left inv.lists member).1
    have distinct := ticket_ne inv member (mem_append_left _ before) apart
    obtain ⟨executed, called, cancelled⟩ := inv.recorded.waiting tbe before
    simp only [(completed_keeps s.ctxt apart).2.2.2]
    exact ⟨executed, called, by simp [cancelled, distinct]⟩
  · intro w tbe started
    have holds : (s.proc w).slot = some tbe := congrArg Proc.slot started
    obtain ⟨executed, called, cancelled⟩ := inv.recorded.started w tbe started
    simp only [(completed_keeps s.ctxt (held w tbe holds)).2.2.2]
    exact ⟨executed, called, by simp [cancelled, other w tbe holds]⟩
  · intro w tbe ticket loaded
    have holds : (s.proc w).slot = some tbe := slot_of_loaded loaded
    obtain ⟨own, cancelled⟩ := inv.recorded.loaded w tbe ticket loaded
    simp only [(completed_keeps s.ctxt (held w tbe holds)).2.2.2]
    have apart : ticket ≠ (s.ctxt.reqs be).ticket := own ▸ other w tbe holds
    exact ⟨own, by simp [cancelled, apart]⟩
  · exact inv.recorded.once
  · intro ticket cancelled
    rcases List.mem_append.mp cancelled with before | new
    · exact inv.recorded.spared ticket before
    · rw [List.mem_singleton.mp new]
      exact ⟨notExecuted, notCalled⟩
  · intro ticket touched
    by_cases same : ticket = (s.ctxt.reqs be).ticket
    · rw [same]
      exact inv.tickets.issued be member
    · apply inv.recorded.past ticket
      rintro ⟨executed, called, cancelled⟩
      exact touched ⟨executed, called, by simp [cancelled, same]⟩

theorem recheck_inv : QueueInv s.cancelRecheck := by
  obtain ⟨interrupting, after⟩ := recheck_cases s
  rw [after]
  exact interrupt_inv inv interrupting

theorem apply_inv (event : QueueEvent) : QueueInv (s.apply event) := by
  cases event with
  | request breq op => exact request_inv inv breq op
  | dequeue w => exact dequeue_inv inv w
  | execute w => exact execute_inv inv w
  | markDone w => exact mark_done_inv inv w
  | callback w => exact callback_inv inv w
  | complete w => exact complete_inv inv w
  | cancel address => exact cancel_inv inv address
  | cancelRecheck => exact recheck_inv inv

end

theorem queue_step_inv (s : QueueState) (event : QueueEvent) (inv : QueueInv s) :
    QueueInv (queueStep s event) := by
  unfold queueStep
  split
  · exact inv
  · exact apply_inv inv event

theorem queue_run_inv (events : List QueueEvent) : QueueInv (run queueStep blockifOpen events) :=
  invariant_every_run queue_step_inv events blockifOpen open_inv

/-- After any interleaving of callers and workers each element is once on one list, with a
    status of that list, no assertion has failed, no ticket was executed twice, and a
    cancelled ticket was neither executed nor called back. -/
theorem queue_partition (events : List QueueEvent) :
    let s := run queueStep blockifOpen events
    s.aborted = false ∧
      (∀ be, s.ctxt.freeq.count be + s.ctxt.pendq.count be + s.ctxt.busyq.count be = 1) ∧
      (∀ be ∈ s.ctxt.freeq, (s.ctxt.reqs be).beStatus = .free) ∧
      (∀ be ∈ s.ctxt.pendq, (s.ctxt.reqs be).beStatus = .pend ∨ (s.ctxt.reqs be).beStatus = .block) ∧
      (∀ be ∈ s.ctxt.busyq, (s.ctxt.reqs be).beStatus = .busy ∨ (s.ctxt.reqs be).beStatus = .done) ∧
      s.executed.Nodup ∧
      ∀ ticket ∈ s.cancelled, ticket ∉ s.executed ∧ ticket ∉ s.calledBack := by
  intro s
  have inv := queue_run_inv events
  exact ⟨inv.going, inv.lists.once, inv.lists.free, inv.lists.pend, inv.lists.busy,
    inv.recorded.once, inv.recorded.spared⟩

end BlockQueue
