import Mathlib.Data.Fintype.Basic
import Bhyve.Block.Partition

/-!
The order the queue keeps between a request and one that starts where it ends.
-/
namespace BlockQueue
open StepRuns List

def BlockedBehind (c : Ctxt) : Prop :=
  ∀ be ∈ c.pendq, (c.reqs be).beStatus = .block →
    ∃ tbe ∈ c.outstanding, (c.reqs tbe).ticket < (c.reqs be).ticket ∧
      (c.reqs be).startsAt (c.reqs tbe).beBlock = true

def RunnableWhenIdle (c : Ctxt) : Prop :=
  c.pendq ≠ [] → c.busyq = [] → ∃ be ∈ c.pendq, (c.reqs be).beStatus = .pend

def NothingAhead (c : Ctxt) (be : Slot) : Prop :=
  ∀ tbe ∈ c.outstanding, (c.reqs tbe).ticket < (c.reqs be).ticket →
    (c.reqs be).startsAt (c.reqs tbe).beBlock = false

/-- The element blockif_dequeue would take now has no earlier outstanding request that
    ends at its start. -/
def TakenInOrder (c : Ctxt) : Prop :=
  ∀ be, firstPend c c.pendq = some (some be) → NothingAhead c be

def completing (s : QueueState) : QueueEvent → Option Slot
  | .complete w =>
      match s.proc w with
      | .calledBack be => some be
      | _ => none
  | .cancel address => findReq s.ctxt s.ctxt.pendq address
  | _ => none

def ReleasesLast (s : QueueState) (event : QueueEvent) : Prop :=
  ∀ be ∈ completing s event, ∀ tbe ∈ s.ctxt.pendq, (s.ctxt.reqs tbe).beStatus = .block →
    (s.ctxt.reqs tbe).startsAt (s.ctxt.reqs be).beBlock = true →
    ∀ other ∈ s.ctxt.outstanding, other ≠ be →
      (s.ctxt.reqs other).ticket < (s.ctxt.reqs tbe).ticket →
      (s.ctxt.reqs tbe).startsAt (s.ctxt.reqs other).beBlock = false

def Ordered (c : Ctxt) : Prop :=
  ∀ be ∈ c.pendq, (c.reqs be).beStatus = .pend → NothingAhead c be

variable {c : Ctxt} {be : Slot} {s : QueueState}

theorem placed_outstanding {ticket : Nat} {breq : BlockifReq} {op : BlockOp} {tbe : Slot} :
    tbe ∈ (placed c ticket breq op be).outstanding ↔
      tbe ∈ c.outstanding ∨ tbe = be := by
  simp only [placed, Ctxt.outstanding, mem_append, mem_singleton]
  constructor
  · rintro ((pending | same) | running)
    · exact Or.inl (Or.inl pending)
    · exact Or.inr same
    · exact Or.inl (Or.inr running)
  · rintro ((pending | running) | same)
    · exact Or.inl (Or.inl pending)
    · exact Or.inr running
    · exact Or.inl (Or.inr same)

theorem free_not_outstanding (lists : Partitioned c) (free : be ∈ c.freeq) :
    be ∉ c.outstanding := by
  intro inside
  rcases List.mem_append.mp inside with pending | running
  · exact (free_apart lists free).1 pending
  · exact (free_apart lists free).2 running

theorem ends_at_iff (c : Ctxt) (off : BitVec 64) :
    c.endsAt off = true ↔ ∃ tbe ∈ c.outstanding, (c.reqs tbe).beBlock = off := by
  simp only [Ctxt.endsAt, List.any_eq_true, decide_eq_true_eq]

theorem queued_starts_at (c : Ctxt) (ticket : Nat) (breq : BlockifReq) (op : BlockOp) (be : Slot)
    (off : BitVec 64) : (queued c ticket breq op be).startsAt off = decide (breq.brOffset = off) :=
  rfl

theorem placed_behind (inv : QueueInv s) (behind : BlockedBehind s.ctxt) (breq : BlockifReq)
    (op : BlockOp) (free : be ∈ s.ctxt.freeq) :
    BlockedBehind (placed s.ctxt s.nextTicket breq op be) := by
  have outside := free_not_outstanding inv.lists free
  have others : ∀ tbe ∈ s.ctxt.outstanding,
      (placed s.ctxt s.nextTicket breq op be).reqs tbe = s.ctxt.reqs tbe := fun tbe inside =>
    placed_other s.ctxt _ breq op (ne_of_mem_of_not_mem inside outside)
  intro held inside blocked
  by_cases same : held = be
  · subst same
    rw [placed_same] at blocked ⊢
    have ends : s.ctxt.endsAt breq.brOffset = true := by
      by_contra no
      simp [queued, no] at blocked
    obtain ⟨tbe, member, eq⟩ := (ends_at_iff _ _).mp ends
    refine ⟨tbe, placed_outstanding.mpr (Or.inl member), ?_⟩
    rw [others tbe member, queued_starts_at]
    exact ⟨inv.tickets.issued tbe member, decide_eq_true eq.symm⟩
  · have before : held ∈ s.ctxt.pendq := by
      rcases List.mem_append.mp inside with before | new
      · exact before
      · exact absurd (List.mem_singleton.mp new) same
    rw [placed_other s.ctxt _ breq op same] at blocked ⊢
    obtain ⟨tbe, member, earlier, starts⟩ := behind held before blocked
    refine ⟨tbe, placed_outstanding.mpr (Or.inl member), ?_⟩
    rw [others tbe member]
    exact ⟨earlier, starts⟩

theorem placed_ordered (inv : QueueInv s) (ordered : Ordered s.ctxt) (breq : BlockifReq)
    (op : BlockOp) (free : be ∈ s.ctxt.freeq) :
    Ordered (placed s.ctxt s.nextTicket breq op be) := by
  have outside := free_not_outstanding inv.lists free
  intro held inside ready tbe member earlier
  rcases placed_outstanding.mp member with before | new
  · have other := placed_other s.ctxt s.nextTicket breq op (ne_of_mem_of_not_mem before outside)
    rw [other] at earlier ⊢
    by_cases same : held = be
    · subst same
      rw [placed_same] at ready ⊢
      have clear : ¬ s.ctxt.endsAt breq.brOffset = true := by
        intro ends
        simp [queued, ends] at ready
      rw [queued_starts_at, decide_eq_false_iff_not]
      intro eq
      exact clear ((ends_at_iff _ _).mpr ⟨tbe, before, eq.symm⟩)
    · have pending : held ∈ s.ctxt.pendq := by
        rcases List.mem_append.mp inside with pending | new
        · exact pending
        · exact absurd (List.mem_singleton.mp new) same
      rw [placed_other s.ctxt _ breq op same] at ready earlier ⊢
      exact ordered held pending ready tbe before earlier
  · have bound : ((placed s.ctxt s.nextTicket breq op be).reqs held).ticket ≤ s.nextTicket := by
      have issued := (placed_ticketed inv.lists inv.tickets breq op free).issued held
        (mem_append_left _ inside)
      omega
    rw [new, placed_same] at earlier
    exact absurd earlier (Nat.not_lt.mpr bound)

structure SameRequests (c after : Ctxt) : Prop where
  pend : ∀ be ∈ after.pendq, be ∈ c.pendq ∧ after.reqs be = c.reqs be
  outstanding : ∀ tbe, tbe ∈ after.outstanding ↔ tbe ∈ c.outstanding
  ticket : ∀ tbe, (after.reqs tbe).ticket = (c.reqs tbe).ticket
  ends : ∀ tbe, (after.reqs tbe).beBlock = (c.reqs tbe).beBlock

theorem behind_of_same {after : Ctxt} (same : SameRequests c after) (behind : BlockedBehind c) :
    BlockedBehind after := by
  intro be inside blocked
  obtain ⟨before, kept⟩ := same.pend be inside
  rw [kept] at blocked ⊢
  obtain ⟨tbe, member, earlier, starts⟩ := behind be before blocked
  refine ⟨tbe, (same.outstanding tbe).mpr member, ?_⟩
  rw [same.ticket, same.ends]
  exact ⟨earlier, starts⟩

theorem ordered_of_same {after : Ctxt} (same : SameRequests c after) (ordered : Ordered c) :
    Ordered after := by
  intro be inside ready tbe member earlier
  obtain ⟨before, kept⟩ := same.pend be inside
  rw [kept] at ready earlier ⊢
  rw [same.ticket] at earlier
  rw [same.ends]
  exact ordered be before ready tbe ((same.outstanding tbe).mp member) earlier

theorem taken_same_requests (lists : Partitioned c) (w : Worker) (pending : be ∈ c.pendq) :
    SameRequests c (taken c w be) := by
  constructor
  · intro tbe inside
    have apart := ne_of_mem_of_not_mem inside (pend_erase lists be)
    exact ⟨mem_of_mem_erase inside, taken_other c w apart⟩
  · intro tbe
    refine ⟨taken_outstanding pending, fun inside => ?_⟩
    simp only [taken, Ctxt.outstanding, mem_append, mem_singleton] at inside ⊢
    by_cases same : tbe = be
    · exact Or.inr (Or.inr same)
    · rw [mem_erase_of_ne same]
      rcases inside with before | running
      · exact Or.inl before
      · exact Or.inr (Or.inl running)
  · exact taken_ticket c w be
  · intro tbe
    by_cases same : tbe = be
    · rw [same, taken_same]
    · rw [taken_other c w same]

theorem marked_done_same_requests (lists : Partitioned c) (running : be ∈ c.busyq) :
    SameRequests c (markedDone c be) := by
  constructor
  · intro tbe inside
    exact ⟨inside,
      marked_done_other c (ne_of_mem_of_not_mem inside (busy_apart lists running).2)⟩
  · exact fun tbe => Iff.rfl
  · exact marked_done_ticket c be
  · intro tbe
    by_cases same : tbe = be
    · rw [same, marked_done_same]
    · rw [marked_done_other c same]

theorem completed_outstanding (lists : Partitioned c) (member : be ∈ c.outstanding) (tbe : Slot) :
    tbe ∈ (completed c be).outstanding ↔ tbe ∈ c.outstanding ∧ tbe ≠ be :=
  without_outstanding lists member tbe

theorem starts_at_of_req {e e' : BlockifElem} (same : e'.beReq = e.beReq) (off : BitVec 64) :
    e'.startsAt off = e.startsAt off := by
  unfold BlockifElem.startsAt
  rw [same]

theorem completed_behind (lists : Partitioned c) (behind : BlockedBehind c)
    (member : be ∈ c.outstanding) : BlockedBehind (completed c be) := by
  intro held inside blocked
  have apart := ne_of_mem_of_not_mem inside (completed_left lists member).1
  have before := without_pendq_subset c be inside
  have waits : ¬ (c.reqs held).startsAt (c.reqs be).beBlock = true := by
    intro starts
    rw [completed_other c apart, if_pos ⟨inside, starts⟩] at blocked
    simp at blocked
  have kept : (completed c be).reqs held = c.reqs held := by
    rw [completed_other c apart, if_neg (fun met => waits met.2)]
  rw [kept] at blocked ⊢
  obtain ⟨tbe, outstanding, earlier, starts⟩ := behind held before blocked
  have other : tbe ≠ be := by
    rintro rfl
    exact waits starts
  refine ⟨tbe, (completed_outstanding lists member tbe).mpr ⟨outstanding, other⟩, ?_⟩
  rw [(completed_keeps c other).2.2.2, (completed_keeps c other).2.2.1]
  exact ⟨earlier, starts⟩

theorem completed_ordered (lists : Partitioned c) (ordered : Ordered c)
    (member : be ∈ c.outstanding)
    (last : ∀ tbe ∈ c.pendq, (c.reqs tbe).beStatus = .block → (c.reqs tbe).startsAt (c.reqs be).beBlock = true → ∀ other ∈ c.outstanding, other ≠ be → (c.reqs other).ticket < (c.reqs tbe).ticket → (c.reqs tbe).startsAt (c.reqs other).beBlock = false) :
    Ordered (completed c be) := by
  intro held inside ready tbe outstanding earlier
  have apart := ne_of_mem_of_not_mem inside (completed_left lists member).1
  have before := without_pendq_subset c be inside
  obtain ⟨wasOut, other⟩ := (completed_outstanding lists member tbe).mp outstanding
  obtain ⟨req, _, _, ticket⟩ := completed_keeps c apart
  obtain ⟨_, _, ends, otherTicket⟩ := completed_keeps c other
  rw [ticket, otherTicket] at earlier
  rw [ends, starts_at_of_req req]
  rcases lists.pend held before with wasReady | wasBlocked
  · exact ordered held before wasReady tbe wasOut earlier
  · have starts : (c.reqs held).startsAt (c.reqs be).beBlock = true := by
      by_contra no
      rw [completed_other c apart, if_neg (fun met => no met.2), wasBlocked] at ready
      simp at ready
    exact last held before wasBlocked starts tbe wasOut other earlier

theorem same_requests_refl (c : Ctxt) : SameRequests c c :=
  ⟨fun _ inside => ⟨inside, rfl⟩, fun _ => Iff.rfl, fun _ => rfl, fun _ => rfl⟩

theorem apply_ctxt_cases (inv : QueueInv s) (event : QueueEvent) :
    SameRequests s.ctxt (s.apply event).ctxt ∨
      (∃ be ∈ s.ctxt.freeq, ∃ breq op,
        (s.apply event).ctxt = placed s.ctxt s.nextTicket breq op be) ∨
      ∃ be ∈ s.ctxt.outstanding, completing s event = some be ∧
        (s.apply event).ctxt = completed s.ctxt be := by
  cases event with
  | request breq op =>
    rcases request_cases inv breq op with same | ⟨be, free, after⟩
    · exact Or.inl (by rw [QueueState.apply, same]; exact same_requests_refl _)
    · exact Or.inr (Or.inl ⟨be, free, breq, op, by rw [QueueState.apply, after]⟩)
  | dequeue w =>
    left
    rcases dequeue_cases inv w with same | ⟨be, pending, _, _, _, after⟩
    · rw [QueueState.apply, same]
      exact same_requests_refl _
    · rw [QueueState.apply, after]
      exact taken_same_requests inv.lists w pending
  | execute w =>
    left
    simp only [QueueState.apply, QueueState.execute]
    split
    · exact same_requests_refl _
    · exact same_requests_refl _
  | markDone w =>
    left
    simp only [QueueState.apply, QueueState.markDone]
    split
    · rename_i be ticket at_
      exact marked_done_same_requests inv.lists (inv.owned.holds w be (congrArg Proc.slot at_)).1
    · exact same_requests_refl _
  | callback w =>
    left
    simp only [QueueState.apply, QueueState.callback]
    split
    · exact same_requests_refl _
    · exact same_requests_refl _
  | complete w =>
    rcases complete_cases inv w with same | ⟨be, at_, after⟩
    · exact Or.inl (by rw [QueueState.apply, same]; exact same_requests_refl _)
    · exact Or.inr (Or.inr ⟨be, holds_outstanding inv (congrArg Proc.slot at_),
        by simp only [completing, at_], by rw [QueueState.apply, after]⟩)
  | cancel address =>
    rcases cancel_cases inv address with ⟨interrupting, after⟩ | ⟨be, pending, found, after⟩
    · exact Or.inl (by rw [QueueState.apply, after]; exact same_requests_refl _)
    · exact Or.inr (Or.inr ⟨be, mem_append_left _ pending, found,
        by rw [QueueState.apply, after]⟩)
  | cancelRecheck =>
    obtain ⟨interrupting, after⟩ := recheck_cases s
    exact Or.inl (by rw [QueueState.apply, after]; exact same_requests_refl _)

theorem apply_behind (inv : QueueInv s) (behind : BlockedBehind s.ctxt) (event : QueueEvent) :
    BlockedBehind (s.apply event).ctxt := by
  rcases apply_ctxt_cases inv event with
    same | ⟨be, free, breq, op, after⟩ | ⟨be, member, _, after⟩
  · exact behind_of_same same behind
  · rw [after]
    exact placed_behind inv behind breq op free
  · rw [after]
    exact completed_behind inv.lists behind member

theorem step_behind (inv : QueueInv s) (behind : BlockedBehind s.ctxt) (event : QueueEvent) :
    BlockedBehind (queueStep s event).ctxt := by
  unfold queueStep
  split
  · exact behind
  · exact apply_behind inv behind event

theorem step_ordered (inv : QueueInv s) (ordered : Ordered s.ctxt) {event : QueueEvent}
    (last : ReleasesLast s event) : Ordered (queueStep s event).ctxt := by
  unfold queueStep
  split
  · exact ordered
  rcases apply_ctxt_cases inv event with
    same | ⟨be, free, breq, op, after⟩ | ⟨be, member, completes, after⟩
  · exact ordered_of_same same ordered
  · rw [after]
    exact placed_ordered inv ordered breq op free
  · rw [after]
    exact completed_ordered inv.lists ordered member (last be completes)

theorem runnable_of_behind (lists : Partitioned c) (behind : BlockedBehind c) :
    RunnableWhenIdle c := by
  intro some idle
  by_contra none
  have blocked : ∀ be ∈ c.pendq, (c.reqs be).beStatus = .block := by
    intro be inside
    rcases lists.pend be inside with ready | status
    · exact absurd ⟨be, inside, ready⟩ none
    · exact status
  have descent : ∀ n, ∀ be ∈ c.pendq, (c.reqs be).ticket ≠ n := by
    intro n
    induction n using Nat.strongRecOn with
    | ind n ih =>
      intro be inside eq
      obtain ⟨tbe, member, earlier, _⟩ := behind be inside (blocked be inside)
      rw [Ctxt.outstanding, idle, append_nil] at member
      exact ih _ (eq ▸ earlier) tbe member rfl
  obtain ⟨be, inside⟩ := exists_mem_of_ne_nil _ some
  exact descent _ be inside rfl

theorem taken_in_order_of_ordered (lists : Partitioned c) (ordered : Ordered c) :
    TakenInOrder c := by
  intro be found
  rcases first_pend_spec c c.pendq lists.pend with ⟨none, _⟩ | ⟨first, inside, eq, ready⟩
  · rw [none] at found
    simp at found
  · obtain rfl : first = be := by
      rw [eq] at found
      exact Option.some.inj (Option.some.inj found)
    exact ordered first inside ready

theorem open_behind : BlockedBehind blockifOpen.ctxt :=
  fun _ inside => absurd inside not_mem_nil

theorem open_ordered : Ordered blockifOpen.ctxt :=
  fun _ inside => absurd inside not_mem_nil

theorem queue_run_behind (events : List QueueEvent) :
    BlockedBehind (run queueStep blockifOpen events).ctxt := by
  have both := invariant_every_run
    (fun s event (inv : QueueInv s ∧ BlockedBehind s.ctxt) =>
      ⟨queue_step_inv s event inv.1, step_behind inv.1 inv.2 event⟩)
    events blockifOpen ⟨open_inv, open_behind⟩
  exact both.2

theorem queue_run_ordered (events : List QueueEvent)
    (last : Along queueStep ReleasesLast blockifOpen events) :
    Ordered (run queueStep blockifOpen events).ctxt := by
  have both := invariant_run
    (fun s event (inv : QueueInv s ∧ Ordered s.ctxt) (ok : ReleasesLast s event) =>
      (⟨queue_step_inv s event inv.1, step_ordered inv.1 inv.2 ok⟩ :
        QueueInv (queueStep s event) ∧ Ordered (queueStep s event).ctxt))
    events blockifOpen ⟨open_inv, open_ordered⟩ last
  exact both.2

/-- Every blocked element has its blocker and an idle backend always has something to run.
    When no completion releases a waiter that another request still blocks, nothing is
    taken before an earlier request that ends at its start. -/
theorem requests_ordered (events : List QueueEvent) :
    let c := (run queueStep blockifOpen events).ctxt
    BlockedBehind c ∧ RunnableWhenIdle c ∧
      (Along queueStep ReleasesLast blockifOpen events → TakenInOrder c) := by
  intro c
  have lists := (queue_run_inv events).lists
  have behind := queue_run_behind events
  exact ⟨behind, runnable_of_behind lists behind,
    fun last => taken_in_order_of_ordered lists (queue_run_ordered events last)⟩

instance (s : QueueState) (event : QueueEvent) : Decidable (ReleasesLast s event) :=
  match found : completing s event with
  | none => .isTrue (by simp [ReleasesLast, found])
  | some be => decidable_of_iff (∀ tbe ∈ s.ctxt.pendq, (s.ctxt.reqs tbe).beStatus = .block →
      (s.ctxt.reqs tbe).startsAt (s.ctxt.reqs be).beBlock = true →
      ∀ other ∈ s.ctxt.outstanding, other ≠ be →
        (s.ctxt.reqs other).ticket < (s.ctxt.reqs tbe).ticket →
        (s.ctxt.reqs tbe).startsAt (s.ctxt.reqs other).beBlock = false)
      (by simp [ReleasesLast, found])

def served (w : Worker) : List QueueEvent :=
  [.dequeue w, .execute w, .markDone w, .callback w, .complete w]

def readAt (address : Nat) (offset length : BitVec 64) : QueueEvent :=
  .request ⟨address, offset, [length]⟩ .read

theorem requests_ordered_pair :
    let events := [readAt 0 0 8, readAt 1 8 8] ++ served ⟨0, by decide⟩
    Along queueStep ReleasesLast blockifOpen events ∧
      TakenInOrder (run queueStep blockifOpen events).ctxt := by
  intro events
  have last : Along queueStep ReleasesLast blockifOpen events := by decide +kernel
  exact ⟨last, (requests_ordered events).2.2 last⟩

theorem released_too_early :
    let events := [readAt 0 0 8, readAt 1 4 4, readAt 2 8 8] ++ served ⟨0, by decide⟩ ++
      [.dequeue ⟨1, by decide⟩]
    ¬ TakenInOrder (run queueStep blockifOpen events).ctxt := by
  intro events ordered
  have ahead := ordered ⟨133, by decide⟩ (by decide) ⟨134, by decide⟩ (by decide)
    (by decide)
  exact absurd ahead (by decide)

end BlockQueue
