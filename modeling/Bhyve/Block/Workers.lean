import Bhyve.Block.Ordering

/-!
The worker pool around the request queue: blockif_thr with its two condition waits, and the
callers that signal them. A woken thread runs its next critical section when it gets the mutex.
-/
namespace BlockWorkers
open StepRuns BlockQueue Function List

inductive Thread where
  | start
  | inProc
  | waitPaused
  | wokenPaused
  | waitCond
  | wokenCond
  | exited
deriving DecidableEq

def Thread.willLook : Thread → Bool
  | .start | .inProc | .wokenCond => true
  | .waitPaused | .wokenPaused | .waitCond | .exited => false

def Thread.listens (t : Thread) : Bool := t.willLook || decide (t = .waitCond)

def Thread.inCondWait (t : Thread) : Bool := decide (t = .waitCond ∨ t = .waitPaused)

/-- The queue, the worker threads, and how many callers of blockif_pause are blocked on or
    woken from bc_work_done_cond. -/
structure Pool where
  queue : QueueState
  thread : Worker → Thread
  paused : Bool
  closing : Bool
  workCount : Int
  pauseWaiting : Nat
  pauseWoken : Nat

inductive PoolEvent where
  | enter (w : Worker)
  | execute (w : Worker)
  | markDone (w : Worker)
  | callback (w : Worker)
  | finish (w : Worker)
  | recheckPaused (w : Worker)
  | spurious (w : Worker)
  | request (breq : BlockifReq) (op : BlockOp) (choice : Worker)
  | cancel (address : Nat)
  | cancelRecheck
  | pause
  | pauseRecheck
  | resume
  | close
  | closeBroadcast

def wakeCond (thread : Worker → Thread) : Worker → Thread := fun w =>
  if thread w = .waitCond then .wokenCond else thread w

def wakePaused (thread : Worker → Thread) : Worker → Thread := fun w =>
  if thread w = .waitPaused then .wokenPaused else thread w

def signalled (thread : Worker → Thread) (choice : Worker) : Option Worker :=
  if thread choice = .waitCond then some choice
  else (List.finRange blockifNumthr).find? fun w => decide (thread w = .waitCond)

variable (p : Pool)

def Pool.signal (choice : Worker) : Pool :=
  match signalled p.thread choice with
  | some w => { p with thread := update p.thread w .wokenCond }
  | none => p

def Pool.leave (w : Worker) : Pool :=
  { p with
    workCount := p.workCount - 1
    pauseWaiting := if p.workCount - 1 = 0 then 0 else p.pauseWaiting
    pauseWoken := if p.workCount - 1 = 0 then p.pauseWoken + p.pauseWaiting else p.pauseWoken
    thread := update p.thread w
      (if p.closing then .exited else if p.paused then .waitPaused else .waitCond) }

def Pool.look (w : Worker) : Pool :=
  if p.paused then p.leave w
  else
    match (p.queue.dequeue w).proc w with
    | .idle => { p with queue := p.queue.dequeue w : Pool }.leave w
    | _ => { p with queue := p.queue.dequeue w, thread := update p.thread w .inProc }

def Pool.enter (w : Worker) : Pool :=
  if p.thread w = .start ∨ p.thread w = .wokenCond then
    { p with workCount := p.workCount + 1 : Pool }.look w
  else p

def Pool.finish (w : Worker) : Pool :=
  match p.queue.proc w with
  | .calledBack _ => { p with queue := p.queue.complete w : Pool }.look w
  | _ => p

def Pool.recheckPaused (w : Worker) : Pool :=
  if p.thread w = .wokenPaused then
    { p with thread := update p.thread w (if p.paused then .waitPaused else .waitCond) }
  else p

def Pool.spurious (w : Worker) : Pool :=
  if p.thread w = .waitCond then { p with thread := update p.thread w .wokenCond }
  else if p.thread w = .waitPaused then
    { p with thread := update p.thread w .wokenPaused }
  else p

def Pool.request (p : Pool) (breq : BlockifReq) (op : BlockOp) (choice : Worker) : Pool :=
  let after := { p with queue := p.queue.request breq op }
  match blockifEnqueue p.queue.ctxt p.queue.nextTicket breq op with
  | some (_, true) => after.signal choice
  | _ => after

def Pool.pause (p : Pool) : Pool :=
  { p with paused := true
           pauseWaiting := if p.workCount = 0 then p.pauseWaiting else p.pauseWaiting + 1 }

def Pool.pauseRecheck (p : Pool) : Pool :=
  if p.pauseWoken = 0 then p
  else
    { p with pauseWoken := p.pauseWoken - 1
             pauseWaiting := if p.workCount = 0 then p.pauseWaiting else p.pauseWaiting + 1 }

def Pool.resume (p : Pool) : Pool :=
  { p with paused := false, thread := wakeCond (wakePaused p.thread) }

def PoolEvent.takesLock : PoolEvent → Bool
  | .execute _ | .markDone _ | .callback _ | .spurious _ | .cancelRecheck | .closeBroadcast => false
  | .enter _ | .finish _ | .recheckPaused _ | .request _ _ _ | .cancel _ | .pause
  | .pauseRecheck | .resume | .close => true

def Pool.apply (p : Pool) : PoolEvent → Pool
  | .enter w => p.enter w
  | .execute w => { p with queue := p.queue.execute w }
  | .markDone w => { p with queue := p.queue.markDone w }
  | .callback w => { p with queue := p.queue.callback w }
  | .finish w => p.finish w
  | .recheckPaused w => p.recheckPaused w
  | .spurious w => p.spurious w
  | .request breq op choice => p.request breq op choice
  | .cancel address => { p with queue := p.queue.cancel address }
  | .cancelRecheck => { p with queue := p.queue.cancelRecheck }
  | .pause => p.pause
  | .pauseRecheck => p.pauseRecheck
  | .resume => p.resume
  | .close => { p with closing := true }
  | .closeBroadcast => if p.closing then { p with thread := wakeCond p.thread } else p

def poolStep (event : PoolEvent) : Pool :=
  if p.queue.aborted = true ∨ (event.takesLock = true ∧ p.queue.interrupting.isSome = true) then p
  else p.apply event

def poolOpen : Pool :=
  { queue := blockifOpen
    thread := fun _ => .start
    paused := false
    closing := false
    workCount := 0
    pauseWaiting := 0
    pauseWoken := 0 }

def NoLostWakeup (p : Pool) : Prop :=
  p.paused = false → p.closing = false → (∃ be, (p.queue.ctxt.reqs be).beStatus = .pend) →
    ∃ w, (p.thread w).inCondWait = false

/-- The steps that hand work over need a worker that hears of it: when the pool is resumed
    over queued work, and when a request comes in while it is not paused, not all workers
    may be parked on bc_paused_cond or on their way back from it. -/
def Heard (p : Pool) : PoolEvent → Prop
  | .resume => p.closing = false → (∃ be ∈ p.queue.ctxt.pendq,
      (p.queue.ctxt.reqs be).beStatus = .pend) → ∃ w, (p.thread w).listens = true
  | .request _ _ _ => p.paused = false → p.closing = false → ∃ w, (p.thread w).listens = true
  | _ => True

/-- A worker outside blockif_proc holds nothing, and with requests pending some worker is
    going to look at them. -/
structure PoolInv (p : Pool) : Prop where
  sound : QueueInv p.queue
  behind : BlockedBehind p.queue.ctxt
  working : ∀ w, p.thread w ≠ .inProc → p.queue.proc w = .idle
  alert : p.paused = false → p.closing = false → p.queue.ctxt.pendq ≠ [] →
    ∃ w, (p.thread w).willLook = true

theorem open_pool_inv : PoolInv poolOpen :=
  ⟨open_inv, open_behind, fun _ _ => rfl, fun _ _ some => absurd rfl some⟩

variable {p : Pool} {w : Worker} {s : QueueState} {thread : Worker → Thread}

theorem in_proc_of_busy (sound : QueueInv p.queue)
    (others : ∀ worker, worker ≠ w → p.thread worker ≠ .inProc → p.queue.proc worker = .idle)
    (idle : p.queue.proc w = .idle) (busy : p.queue.ctxt.busyq ≠ []) :
    ∃ worker, worker ≠ w ∧ p.thread worker = .inProc := by
  obtain ⟨be, inside⟩ := exists_mem_of_ne_nil _ busy
  obtain ⟨worker, holds⟩ := sound.owned.served be inside
  have apart : worker ≠ w := by
    rintro rfl
    rw [idle] at holds
    simp [Proc.slot] at holds
  refine ⟨worker, apart, ?_⟩
  by_contra outside
  rw [others worker apart outside] at holds
  simp [Proc.slot] at holds

theorem someone_in_proc (inv : PoolInv p) (busy : p.queue.ctxt.busyq ≠ []) :
    ∃ w, p.thread w = .inProc := by
  obtain ⟨be, inside⟩ := exists_mem_of_ne_nil _ busy
  obtain ⟨w, holds⟩ := inv.sound.owned.served be inside
  refine ⟨w, ?_⟩
  by_contra outside
  rw [inv.working w outside] at holds
  simp [Proc.slot] at holds

theorem leave_thread (p : Pool) {worker : Worker} (apart : worker ≠ w) :
    (p.leave w).thread worker = p.thread worker :=
  update_of_ne apart ..

theorem leave_working
    (others : ∀ worker, worker ≠ w → p.thread worker ≠ .inProc → p.queue.proc worker = .idle)
    (idle : p.queue.proc w = .idle) (worker : Worker)
    (outside : (p.leave w).thread worker ≠ .inProc) : p.queue.proc worker = .idle := by
  by_cases same : worker = w
  · rw [same]
    exact idle
  · rw [leave_thread p same] at outside
    exact others worker same outside

theorem dequeue_idle (inv : QueueInv s) (idle : s.proc w = .idle) :
    (s.dequeue w = s ∧ ∀ be ∈ s.ctxt.pendq, (s.ctxt.reqs be).beStatus = .block) ∨
      ∃ be, s.dequeue w =
        { s with ctxt := taken s.ctxt w be, proc := update s.proc w (.started be) } := by
  rcases first_pend_spec s.ctxt s.ctxt.pendq inv.lists.pend with
    ⟨none, blocked⟩ | ⟨be, _, found, _⟩
  · exact Or.inl ⟨by simp only [QueueState.dequeue, idle, blockifDequeue, none], blocked⟩
  · exact Or.inr ⟨be, by simp only [QueueState.dequeue, idle, blockifDequeue, found]⟩

theorem look_inv {p : Pool} (sound : QueueInv p.queue) (behind : BlockedBehind p.queue.ctxt)
    {w : Worker}
    (others : ∀ worker, worker ≠ w → p.thread worker ≠ .inProc → p.queue.proc worker = .idle)
    (idle : p.queue.proc w = .idle) : PoolInv (p.look w) := by
  unfold Pool.look
  split
  · rename_i paused
    exact ⟨sound, behind, leave_working others idle,
      fun unpaused => absurd (paused.symm.trans unpaused) (by decide)⟩
  rcases dequeue_idle sound idle with ⟨same, blocked⟩ | ⟨be, after⟩
  · rw [same, idle]
    refine ⟨sound, behind, leave_working others idle, ?_⟩
    intro _ _ some
    have busy : p.queue.ctxt.busyq ≠ [] := by
      intro none
      obtain ⟨be, inside, ready⟩ := runnable_of_behind sound.lists behind some none
      rw [blocked be inside] at ready
      simp at ready
    obtain ⟨worker, apart, inProc⟩ := in_proc_of_busy sound others idle busy
    exact ⟨worker, by rw [leave_thread _ apart]; simp only [inProc]; rfl⟩
  · have started : (p.queue.dequeue w).proc w = .started be := by
      rw [after]
      exact update_self ..
    rw [started]
    refine ⟨dequeue_inv sound w, apply_behind sound behind (.dequeue w), ?_,
      fun _ _ _ => ⟨w, by simp [Thread.willLook]⟩⟩
    intro worker outside
    by_cases same : worker = w
    · subst same
      simp at outside
    · simp only [update_of_ne same] at outside
      simp only [after, update_of_ne same]
      exact others worker same outside

theorem enter_inv (inv : PoolInv p) (w : Worker) : PoolInv (p.enter w) := by
  unfold Pool.enter
  split
  · rename_i ready
    have outside : p.thread w ≠ .inProc := by
      rcases ready with at_ | at_
      · rw [at_]; simp
      · rw [at_]; simp
    exact @look_inv { p with workCount := p.workCount + 1 } inv.sound inv.behind w
      (fun worker _ => inv.working worker) (inv.working w outside)
  · exact inv

theorem finish_inv (inv : PoolInv p) (w : Worker) : PoolInv (p.finish w) := by
  unfold Pool.finish
  split
  case h_2 => exact inv
  rename_i be at_
  have member := holds_outstanding inv.sound (congrArg Proc.slot at_)
  have after : p.queue.complete w = { p.queue with
      ctxt := completed p.queue.ctxt be, proc := update p.queue.proc w .idle } := by
    simp only [QueueState.complete, at_, complete_works inv.sound.lists member]
  apply look_inv (complete_inv inv.sound w) (apply_behind inv.sound inv.behind (.complete w))
  · intro worker apart outside
    simp only [after, update_of_ne apart]
    exact inv.working worker outside
  · simp only [after, update_self]

theorem quiet_inv (inv : PoolInv p) (event : QueueEvent)
    (pendq : (p.queue.apply event).ctxt.pendq ⊆ p.queue.ctxt.pendq)
    (idle : ∀ w, p.queue.proc w = .idle → (p.queue.apply event).proc w = .idle) :
    PoolInv { p with queue := p.queue.apply event } := by
  refine ⟨apply_inv inv.sound event, apply_behind inv.sound inv.behind event,
    fun w outside => idle w (inv.working w outside), ?_⟩
  intro unpaused opened some
  obtain ⟨be, inside⟩ := exists_mem_of_ne_nil _ some
  exact inv.alert unpaused opened (ne_nil_of_mem (pendq inside))

theorem at_work_inv {p : Pool} (inv : PoolInv p) (event : QueueEvent) {w : Worker} {q : Proc}
    (busy : p.queue.proc w ≠ .idle) (pendq : (p.queue.apply event).ctxt.pendq = p.queue.ctxt.pendq)
    (proc : (p.queue.apply event).proc = update p.queue.proc w q) :
    PoolInv { p with queue := p.queue.apply event } := by
  apply quiet_inv inv event
  · rw [pendq]
    exact List.Subset.refl _
  · intro worker idle
    have apart : worker ≠ w := by
      rintro rfl
      exact busy idle
    rw [proc, update_of_ne apart]
    exact idle

section
variable (inv : PoolInv p)
include inv

theorem execute_pool_inv (w : Worker) : PoolInv { p with queue := p.queue.execute w } := by
  cases at_ : p.queue.proc w
  case started be =>
    apply @at_work_inv p inv (.execute w) w (.executed be (p.queue.ctxt.reqs be).ticket)
    · simp [at_]
    · simp only [QueueState.apply, QueueState.execute, at_]
    · simp only [QueueState.apply, QueueState.execute, at_]
  all_goals simpa only [QueueState.execute, at_] using inv

theorem mark_done_pool_inv (w : Worker) : PoolInv { p with queue := p.queue.markDone w } := by
  cases at_ : p.queue.proc w
  case executed be ticket =>
    apply @at_work_inv p inv (.markDone w) w (.finished be ticket)
    · simp [at_]
    · simp only [QueueState.apply, QueueState.markDone, at_, markedDone]
    · simp only [QueueState.apply, QueueState.markDone, at_]
  all_goals simpa only [QueueState.markDone, at_] using inv

theorem callback_pool_inv (w : Worker) : PoolInv { p with queue := p.queue.callback w } := by
  cases at_ : p.queue.proc w
  case finished be ticket =>
    apply @at_work_inv p inv (.callback w) w (.calledBack be)
    · simp [at_]
    · simp only [QueueState.apply, QueueState.callback, at_]
    · simp only [QueueState.apply, QueueState.callback, at_]
  all_goals simpa only [QueueState.callback, at_] using inv

theorem cancel_pool_inv (address : Nat) : PoolInv { p with queue := p.queue.cancel address } := by
  rcases cancel_cases inv.sound address with ⟨interrupting, after⟩ | ⟨be, pending, _, after⟩
  · apply quiet_inv inv (.cancel address)
    · rw [QueueState.apply, after]
      exact List.Subset.refl _
    · intro w idle
      rw [QueueState.apply, after]
      exact idle
  · apply quiet_inv inv (.cancel address)
    · rw [QueueState.apply, after]
      exact without_pendq_subset _ be
    · intro w idle
      rw [QueueState.apply, after]
      exact idle

theorem recheck_pool_inv : PoolInv { p with queue := p.queue.cancelRecheck } := by
  obtain ⟨interrupting, after⟩ := recheck_cases p.queue
  apply quiet_inv inv .cancelRecheck
  · rw [QueueState.apply, after]
    exact List.Subset.refl _
  · intro w idle
    rw [QueueState.apply, after]
    exact idle

theorem moved_thread_inv {t : Thread} (asleep : (p.thread w).willLook = false)
    (outside : p.thread w ≠ .inProc) : PoolInv { p with thread := update p.thread w t } := by
  refine ⟨inv.sound, inv.behind, ?_, ?_⟩
  · intro worker away
    by_cases same : worker = w
    · rw [same]
      exact inv.working w outside
    · simp only [update_of_ne same] at away
      exact inv.working worker away
  · intro unpaused opened some
    obtain ⟨worker, looks⟩ := inv.alert unpaused opened some
    have apart : worker ≠ w := by
      rintro rfl
      rw [asleep] at looks
      simp at looks
    exact ⟨worker, by simpa only [update_of_ne apart] using looks⟩

theorem recheck_paused_inv (w : Worker) : PoolInv (p.recheckPaused w) := by
  unfold Pool.recheckPaused
  split
  · rename_i at_
    exact moved_thread_inv inv (by rw [at_]; rfl) (by rw [at_]; simp)
  · exact inv

theorem spurious_inv (w : Worker) : PoolInv (p.spurious w) := by
  unfold Pool.spurious
  split
  · rename_i at_
    exact moved_thread_inv inv (by rw [at_]; rfl) (by rw [at_]; simp)
  · split
    · rename_i at_
      exact moved_thread_inv inv (by rw [at_]; rfl) (by rw [at_]; simp)
    · exact inv

end

theorem signal_rest (p : Pool) (choice : Worker) :
    (p.signal choice).queue = p.queue ∧ (p.signal choice).paused = p.paused ∧
      (p.signal choice).closing = p.closing := by
  unfold Pool.signal
  split
  · exact ⟨rfl, rfl, rfl⟩
  · exact ⟨rfl, rfl, rfl⟩

theorem signalled_waiting {choice : Worker} (woken : signalled thread choice = some w) :
    thread w = .waitCond := by
  unfold signalled at woken
  split at woken
  · rename_i at_
    exact Option.some.inj woken ▸ at_
  · have met := find?_some woken
    simpa only [decide_eq_true_eq] using met

theorem signalled_none {choice : Worker} (nobody : signalled thread choice = none) (w : Worker) :
    thread w ≠ .waitCond := by
  unfold signalled at nobody
  split at nobody
  · simp at nobody
  · have missed := List.find?_eq_none.mp nobody w (mem_finRange w)
    simpa using missed

theorem signal_looks (choice : Worker) (heard : ∃ w, (p.thread w).listens = true) :
    ∃ w, ((p.signal choice).thread w).willLook = true := by
  unfold Pool.signal
  split
  · rename_i w _
    exact ⟨w, by simp [Thread.willLook]⟩
  · rename_i nobody
    obtain ⟨w, listens⟩ := heard
    have awake := signalled_none nobody w
    simp only [Thread.listens, awake, decide_false, Bool.or_false] at listens
    exact ⟨w, listens⟩

theorem signal_working {p : Pool} (working : ∀ w, p.thread w ≠ .inProc → p.queue.proc w = .idle)
    (choice w : Worker) (outside : (p.signal choice).thread w ≠ .inProc) :
    p.queue.proc w = .idle := by
  unfold Pool.signal at outside
  split at outside
  · rename_i woken found
    by_cases same : w = woken
    · apply working w
      rw [same, signalled_waiting found]
      simp
    · simp only [update_of_ne same] at outside
      exact working w outside
  · exact working w outside

theorem request_proc (inv : QueueInv s) (breq : BlockifReq) (op : BlockOp) (w : Worker) :
    (s.request breq op).proc w = s.proc w := by
  rcases request_cases inv breq op with same | ⟨be, _, after⟩
  · rw [same]
  · rw [after]

theorem request_pool_inv (inv : PoolInv p) (breq : BlockifReq) (op : BlockOp) (choice : Worker)
    (heard : Heard p (.request breq op choice)) : PoolInv (p.request breq op choice) := by
  have sound := request_inv inv.sound breq op
  have behind := apply_behind inv.sound inv.behind (.request breq op)
  have working : ∀ w, p.thread w ≠ .inProc → (p.queue.request breq op).proc w = .idle := by
    intro w outside
    rw [request_proc inv.sound]
    exact inv.working w outside
  unfold Pool.request
  simp only
  split
  · obtain ⟨queue, paused, closing⟩ := signal_rest { p with queue := p.queue.request breq op } choice
    refine ⟨?_, ?_, ?_, ?_⟩
    · rw [queue]
      exact sound
    · rw [queue]
      exact behind
    · intro w outside
      rw [queue]
      exact @signal_working { p with queue := p.queue.request breq op } working choice w outside
    · intro unpaused opened _
      rw [paused] at unpaused
      rw [closing] at opened
      exact signal_looks choice (heard unpaused opened)
  · rename_i quiet
    refine ⟨sound, behind, working, ?_⟩
    intro unpaused opened some
    cases room : p.queue.ctxt.freeq with
    | nil =>
      have same : p.queue.request breq op = p.queue := if_pos room
      exact inv.alert unpaused opened (by rwa [same] at some)
    | cons be rest =>
      have flag := enqueue_works inv.sound.lists p.queue.nextTicket breq op room
      have ends : p.queue.ctxt.endsAt breq.brOffset = true := by
        by_contra no
        rw [Bool.not_eq_true] at no
        exact quiet _ (by rw [flag, no]; rfl)
      obtain ⟨tbe, member, _⟩ := (ends_at_iff _ _).mp ends
      rcases List.mem_append.mp member with pending | running
      · exact inv.alert unpaused opened (ne_nil_of_mem pending)
      · obtain ⟨w, inProc⟩ := someone_in_proc inv (ne_nil_of_mem running)
        exact ⟨w, by simp only [inProc]; rfl⟩

theorem broadcast_looks (listens : (thread w).listens = true) :
    (wakeCond (wakePaused thread) w).willLook = true := by
  unfold wakeCond wakePaused
  cases at_ : thread w
  case waitPaused => simp [at_, Thread.listens, Thread.willLook] at listens
  case wokenPaused => simp [at_, Thread.listens, Thread.willLook] at listens
  case exited => simp [at_, Thread.listens, Thread.willLook] at listens
  all_goals simp [Thread.willLook]

theorem broadcast_outside (outside : wakeCond (wakePaused thread) w ≠ .inProc) :
    thread w ≠ .inProc := by
  intro at_
  apply outside
  simp [wakeCond, wakePaused, at_]

theorem resume_inv (inv : PoolInv p) (heard : Heard p .resume) : PoolInv p.resume := by
  refine ⟨inv.sound, inv.behind, fun w outside => inv.working w (broadcast_outside outside), ?_⟩
  intro _ opened some
  have listener : ∃ w, (p.thread w).listens = true := by
    by_cases idle : p.queue.ctxt.busyq = []
    · exact heard opened (runnable_of_behind inv.sound.lists inv.behind some idle)
    · obtain ⟨w, inProc⟩ := someone_in_proc inv idle
      exact ⟨w, by rw [inProc]; rfl⟩
  obtain ⟨w, listens⟩ := listener
  exact ⟨w, broadcast_looks listens⟩

theorem pool_step_inv (p : Pool) (event : PoolEvent) (inv : PoolInv p) (heard : Heard p event) :
    PoolInv (poolStep p event) := by
  unfold poolStep
  split
  · exact inv
  cases event with
  | enter w => exact enter_inv inv w
  | execute w => exact execute_pool_inv inv w
  | markDone w => exact mark_done_pool_inv inv w
  | callback w => exact callback_pool_inv inv w
  | finish w => exact finish_inv inv w
  | recheckPaused w => exact recheck_paused_inv inv w
  | spurious w => exact spurious_inv inv w
  | request breq op choice => exact request_pool_inv inv breq op choice heard
  | cancel address => exact cancel_pool_inv inv address
  | cancelRecheck => exact recheck_pool_inv inv
  | pause =>
    exact ⟨inv.sound, inv.behind, inv.working, fun unpaused => absurd unpaused (by simp [Pool.apply, Pool.pause])⟩
  | pauseRecheck =>
    simp only [Pool.apply, Pool.pauseRecheck]
    split
    · exact inv
    · exact ⟨inv.sound, inv.behind, inv.working, inv.alert⟩
  | resume => exact resume_inv inv heard
  | close =>
    exact ⟨inv.sound, inv.behind, inv.working, fun _ opened => absurd opened (by simp [Pool.apply])⟩
  | closeBroadcast =>
    simp only [Pool.apply]
    split
    · rename_i closing
      refine ⟨inv.sound, inv.behind, ?_, fun _ opened => absurd (closing.symm.trans opened) (by simp)⟩
      intro w outside
      apply inv.working w
      intro at_
      apply outside
      simp [wakeCond, at_]
    · exact inv

theorem pending_of_pend {c : Ctxt} (lists : Partitioned c) {be : Slot}
    (ready : (c.reqs be).beStatus = .pend) : be ∈ c.pendq := by
  have one := lists.once be
  by_contra outside
  have none := List.count_eq_zero.mpr outside
  have member : be ∈ c.freeq ∨ be ∈ c.busyq := by
    simp only [← count_pos_iff]
    omega
  rcases member with free | busy
  · rw [lists.free be free] at ready
    simp at ready
  · rcases lists.busy be busy with status | status
    · rw [status] at ready
      simp at ready
    · rw [status] at ready
      simp at ready

theorem no_lost_of_inv (inv : PoolInv p) : NoLostWakeup p := by
  rintro unpaused opened ⟨be, ready⟩
  have pending := pending_of_pend inv.sound.lists ready
  obtain ⟨w, looks⟩ := inv.alert unpaused opened (ne_nil_of_mem pending)
  refine ⟨w, ?_⟩
  cases at_ : p.thread w
  case waitCond => simp [at_, Thread.willLook] at looks
  case waitPaused => simp [at_, Thread.willLook] at looks
  all_goals rfl

/-- In every run in which the steps that hand work over are heard, no wake-up is lost. -/
theorem no_lost_wakeup (events : List PoolEvent) (heard : Along poolStep Heard poolOpen events) :
    NoLostWakeup (run poolStep poolOpen events) :=
  no_lost_of_inv (invariant_run pool_step_inv events poolOpen open_pool_inv heard)

theorem step_applies {event : QueueEvent} (going : s.aborted = false)
    (unlocked : event.takesLock = true → s.interrupting = none) :
    queueStep s event = s.apply event := by
  apply if_neg
  rintro (aborted | ⟨takes, locked⟩)
  · rw [going] at aborted
    simp at aborted
  · rw [unlocked takes] at locked
    simp at locked

theorem look_queue (p : Pool) (w : Worker) (going : p.queue.aborted = false)
    (unlocked : p.queue.interrupting = none) :
    ∃ steps, (p.look w).queue = run queueStep p.queue steps := by
  have dequeued : run queueStep p.queue [.dequeue w] = p.queue.dequeue w :=
    step_applies going fun _ => unlocked
  unfold Pool.look
  split
  · exact ⟨[], rfl⟩
  · split
    · exact ⟨[.dequeue w], dequeued.symm⟩
    · exact ⟨[.dequeue w], dequeued.symm⟩

theorem complete_unlocked (inv : QueueInv s) (w : Worker) :
    (s.complete w).interrupting = s.interrupting := by
  rcases complete_cases inv w with same | ⟨be, _, after⟩
  · rw [same]
  · rw [after]

theorem pool_step_queue (sound : QueueInv p.queue) (event : PoolEvent) :
    ∃ steps, (poolStep p event).queue = run queueStep p.queue steps := by
  unfold poolStep
  split
  · exact ⟨[], rfl⟩
  rename_i free
  have going := sound.going
  have unlocked : event.takesLock = true → p.queue.interrupting = none := by
    intro takes
    by_contra locked
    exact free (Or.inr ⟨takes, Option.isSome_iff_ne_none.mpr locked⟩)
  have one : ∀ step : QueueEvent, (step.takesLock = true → p.queue.interrupting = none) →
      p.queue.apply step = run queueStep p.queue [step] := fun step open_ =>
    (step_applies going open_).symm
  cases event with
  | enter w =>
    simp only [Pool.apply, Pool.enter]
    split
    · exact look_queue { p with workCount := p.workCount + 1 } w going (unlocked rfl)
    · exact ⟨[], rfl⟩
  | execute w => exact ⟨[.execute w], one (.execute w) (by simp [QueueEvent.takesLock])⟩
  | markDone w => exact ⟨[.markDone w], one (.markDone w) (by simp [QueueEvent.takesLock])⟩
  | callback w => exact ⟨[.callback w], one (.callback w) (by simp [QueueEvent.takesLock])⟩
  | finish w =>
    simp only [Pool.apply, Pool.finish]
    split
    · obtain ⟨steps, eq⟩ := look_queue { p with queue := p.queue.complete w } w
        (complete_inv sound w).going ((complete_unlocked sound w).trans (unlocked rfl))
      refine ⟨.complete w :: steps, ?_⟩
      rw [eq]
      exact congrArg (fun s => run queueStep s steps) (one (.complete w) fun _ => unlocked rfl)
    · exact ⟨[], rfl⟩
  | recheckPaused w =>
    refine ⟨[], ?_⟩
    simp only [Pool.apply, Pool.recheckPaused]
    split
    · rfl
    · rfl
  | spurious w =>
    refine ⟨[], ?_⟩
    simp only [Pool.apply, Pool.spurious]
    split
    · rfl
    · split
      · rfl
      · rfl
  | request breq op choice =>
    refine ⟨[.request breq op], ?_⟩
    have after := one (.request breq op) fun _ => unlocked rfl
    simp only [Pool.apply, Pool.request]
    split
    · rw [(signal_rest _ choice).1]
      exact after
    · exact after
  | cancel address => exact ⟨[.cancel address], one (.cancel address) fun _ => unlocked rfl⟩
  | cancelRecheck => exact ⟨[.cancelRecheck], one .cancelRecheck (by simp [QueueEvent.takesLock])⟩
  | pause => exact ⟨[], rfl⟩
  | pauseRecheck =>
    refine ⟨[], ?_⟩
    simp only [Pool.apply, Pool.pauseRecheck]
    split
    · rfl
    · rfl
  | resume => exact ⟨[], rfl⟩
  | close => exact ⟨[], rfl⟩
  | closeBroadcast =>
    refine ⟨[], ?_⟩
    simp only [Pool.apply]
    split
    · rfl
    · rfl

theorem pool_refines_queue (events : List PoolEvent) :
    ∃ steps, (run poolStep poolOpen events).queue = run queueStep blockifOpen steps := by
  have keeps : ∀ p event, (∃ steps, p.queue = run queueStep blockifOpen steps) →
      ∃ steps, (poolStep p event).queue = run queueStep blockifOpen steps := by
    rintro p event ⟨steps, eq⟩
    obtain ⟨more, after⟩ := pool_step_queue (eq ▸ queue_run_inv steps) event
    refine ⟨steps ++ more, ?_⟩
    rw [after, eq, run, run, run, foldl_append]
  exact invariant_every_run keeps events poolOpen ⟨[], rfl⟩

def worker0 : Worker := ⟨0, by decide⟩

def oneRead : BlockifReq := ⟨0, 0, [8]⟩

theorem no_lost_wakeup_resumed :
    let events := [.enter worker0, .pause, .request oneRead .read worker0, .resume]
    Along poolStep Heard poolOpen events ∧ NoLostWakeup (run poolStep poolOpen events) := by
  intro events
  have heard : Along poolStep Heard poolOpen events := by
    refine ⟨trivial, trivial, fun unpaused => absurd unpaused (by decide), ?_, trivial⟩
    exact fun _ _ => ⟨worker0, by decide⟩
  exact ⟨heard, no_lost_wakeup events heard⟩

theorem wakeup_lost_on_resume :
    let workers := List.finRange blockifNumthr
    let events := [.pause] ++ workers.map .enter ++
      [.request oneRead .read worker0, .resume] ++ workers.map .recheckPaused
    ¬ NoLostWakeup (run poolStep poolOpen events) := by
  intro workers events awake
  obtain ⟨w, up⟩ := awake (by decide) (by decide)
    ⟨⟨135, by decide⟩, by decide⟩
  have asleep : ∀ w, ((run poolStep poolOpen events).thread w).inCondWait = true := by
    decide
  rw [asleep w] at up
  simp at up

end BlockWorkers
