import Bhyve.Nvme.Threads
import Bhyve.Lib.Fallible
import Bhyve.Lib.StepRuns
import Bhyve.Lib.Tables

namespace Nvme
open StepRuns Tables Fallible List

section

def Thread.held : Thread → List Nat
  | .holding _ _ _ k => [k]
  | .failed _ _ _ k => [k]
  | .releasing _ _ k => [k]
  | _ => []

def Thread.isWaiting : Thread → Bool
  | .waiting _ _ _ _ => true
  | _ => false

def Thread.isPosting : Thread → Bool
  | .posting _ _ => true
  | _ => false

/-- The requests that are not on the free list are with a thread, with the block device or at their
    release, and the semaphore has what the free list has. -/
structure Ledger (ioslots : Nat) (threads : List Thread) (inflight finished free : List Nat)
    (pendingIos sem posts : Nat) : Prop where
  slots : (threads.flatMap Thread.held ++ (inflight ++ (finished ++ free))).Perm (List.range ioslots)
  pending : pendingIos = (threads.flatMap Thread.held).length + inflight.length + finished.length
  sem : free.length =
    sem + threads.countP Thread.isWaiting + threads.countP Thread.isPosting + posts

variable {ioslots v k pendingIos sem posts : Nat} {threads : List Thread}
  {inflight finished free : List Nat} {old new : Thread}

theorem ledger_moves {inflight' free' : List Nat} {pendingIos' sem' : Nat}
    (there : threads[v]? = some old) (slots : (new.held ++ (inflight' ++ (finished ++ free'))).Perm
      (old.held ++ (inflight ++ (finished ++ free))))
    (pending : ∀ others, pendingIos = old.held.length + others + inflight.length →
      pendingIos' = new.held.length + others + inflight'.length)
    (counted : ∀ waits posters,
      free.length = sem + (waits + if old.isWaiting then 1 else 0) +
        (posters + if old.isPosting then 1 else 0) + posts →
      free'.length = sem' + (waits + if new.isWaiting then 1 else 0) +
        (posters + if new.isPosting then 1 else 0) + posts)
    (ledger : Ledger ioslots threads inflight finished free pendingIos sem posts) :
    Ledger ioslots (threads.set v new) inflight' finished free' pendingIos' sem' posts := by
  obtain ⟨rest, before, after⟩ := set_holds Thread.held there
  obtain ⟨waits, waitsBefore, waitsAfter⟩ := set_counts Thread.isWaiting there
  obtain ⟨posters, postersBefore, postersAfter⟩ := set_counts Thread.isPosting there
  have behind : ∀ held others : List Nat,
      (held ++ rest ++ others).Perm (rest ++ (held ++ others)) := fun held others => by
    rw [← List.append_assoc]
    exact List.perm_append_comm.append_right _
  refine ⟨?_, ?_, ?_⟩
  · refine List.Perm.trans ?_ ledger.slots
    refine ((after new).append_right _).trans (List.Perm.trans ?_ (before.append_right _).symm)
    exact (behind _ _).trans ((Perm.append_left _ slots).trans (behind _ _).symm)
  · have total := ledger.pending
    rw [before.length_eq, length_append] at total
    rw [(after new).length_eq, length_append]
    have moved := pending (rest.length + finished.length) (by omega)
    omega
  · rw [waitsAfter, postersAfter]
    exact counted waits posters (waitsBefore ▸ postersBefore ▸ ledger.sem)

section
variable (there : threads[v]? = some old)
include there

theorem ledger_take (none_held : old.held = [])
    (held : new.held = [k]) (waited : old.isWaiting = true) (took : new.isWaiting = false)
    (posting : new.isPosting = old.isPosting)
    (ledger : Ledger ioslots threads inflight finished (k :: free) pendingIos sem posts) :
    Ledger ioslots (threads.set v new) inflight finished free (pendingIos + 1) sem posts := by
  refine ledger_moves there ?_ (fun others total => ?_) (fun waits posters total => ?_) ledger
  · rw [held, none_held, nil_append, singleton_append, ← List.append_assoc inflight,
      ← List.append_assoc inflight]
    exact List.perm_middle.symm
  · simp only [held, none_held, length_cons, length_nil] at total ⊢
    omega
  · rw [waited] at total
    rw [took, posting]
    simp only [length_cons, if_true, Bool.false_eq_true, if_false] at total ⊢
    omega

variable (ledger : Ledger ioslots threads inflight finished free pendingIos sem posts)
include ledger

theorem ledger_put (held : new.held = old.held)
    (waiting : new.isWaiting = old.isWaiting) (posting : new.isPosting = old.isPosting) :
    Ledger ioslots (threads.set v new) inflight finished free pendingIos sem posts :=
  ledger_moves there (by rw [held]) (by simp [held]) (by simp [waiting, posting]) ledger

theorem ledger_issue (held : old.held = [k])
    (none_held : new.held = []) (waiting : new.isWaiting = old.isWaiting)
    (posting : new.isPosting = old.isPosting) :
    Ledger ioslots (threads.set v new) (k :: inflight) finished free pendingIos sem posts := by
  refine ledger_moves there ?_ (fun others total => ?_) (by simp [waiting, posting]) ledger
  · rw [held, none_held]
    exact List.Perm.refl _
  · simp only [held, none_held, length_cons, length_nil] at total ⊢
    omega

theorem ledger_put_back (held : old.held = [k])
    (none_held : new.held = []) (waiting : new.isWaiting = old.isWaiting)
    (posted : old.isPosting = false) (posts_now : new.isPosting = true) :
    Ledger ioslots (threads.set v new) inflight finished (free ++ [k]) (pendingIos - 1) sem posts := by
  refine ledger_moves there ?_ (fun others total => ?_) (fun waits posters total => ?_) ledger
  · rw [held, none_held, nil_append, ← List.append_assoc finished, ← List.append_assoc inflight]
    exact perm_append_comm
  · simp only [held, none_held, length_cons, length_nil] at total ⊢
    omega
  · rw [posted] at total
    rw [waiting, posts_now]
    simp only [length_append, length_cons, length_nil, if_true, Bool.false_eq_true,
      if_false] at total ⊢
    omega

theorem ledger_wait (held : new.held = old.held)
    (waited : old.isWaiting = false) (waits_now : new.isWaiting = true)
    (posting : new.isPosting = old.isPosting) (positive : sem ≠ 0) :
    Ledger ioslots (threads.set v new) inflight finished free pendingIos (sem - 1) posts := by
  refine ledger_moves there (by rw [held]) (by simp [held]) (fun waits posters total => ?_) ledger
  rw [waited] at total
  rw [posting, waits_now]
  simp only [if_true, Bool.false_eq_true, if_false] at total ⊢
  omega

theorem ledger_post (held : new.held = old.held)
    (waiting : new.isWaiting = old.isWaiting) (posted : old.isPosting = true)
    (posts_no_more : new.isPosting = false) :
    Ledger ioslots (threads.set v new) inflight finished free pendingIos (sem + 1) posts := by
  refine ledger_moves there (by rw [held]) (by simp [held]) (fun waits posters total => ?_) ledger
  rw [posted] at total
  rw [waiting, posts_no_more]
  simp only [if_true, Bool.false_eq_true, if_false] at total ⊢
  omega

end

theorem ledger_end (member : k ∈ inflight)
    (ledger : Ledger ioslots threads inflight finished free pendingIos sem posts) :
    Ledger ioslots threads (inflight.erase k) (k :: finished) free pendingIos sem posts := by
  have taken := perm_cons_erase member
  refine ⟨?_, ?_, ledger.sem⟩
  · refine List.Perm.trans (Perm.append_left _ ?_) ledger.slots
    exact List.perm_middle.trans (taken.append_right _).symm
  · have length := taken.length_eq
    have total := ledger.pending
    simp only [length_cons] at length ⊢
    omega

theorem ledger_release (member : k ∈ finished)
    (ledger : Ledger ioslots threads inflight finished free pendingIos sem posts) :
    Ledger ioslots threads inflight (finished.erase k) (free ++ [k]) (pendingIos - 1) sem
      (posts + 1) := by
  have taken := perm_cons_erase member
  refine ⟨?_, ?_, ?_⟩
  · refine List.Perm.trans (Perm.append_left _ (Perm.append_left _ ?_)) ledger.slots
    rw [← List.append_assoc]
    exact List.perm_append_comm.trans (taken.append_right free).symm
  · have length := taken.length_eq
    have total := ledger.pending
    simp only [length_cons] at length
    omega
  · have total := ledger.sem
    simp only [length_append, length_cons, length_nil]
    omega

end

section
variable {cfg : Config} {s s' : Sys} {q sqhead k v : Nat} {cid status : BitVec 16} {tag : Tag}
  {cmd : Command} {input : Input}

theorem set_completion_puts {sqid : Nat} {sc sc' : Softc}
    (ran : setCompletion q sqid cid status sc = .ok sc') :
    let cqid := (sc.submitQueues q).cqid
    let cq := putCompletion (sc.complQueues cqid)
      ⟨0, sqid, (sc.submitQueues q).head, cid, status⟩
    sc' = notifyIo cq (sc.setCq cqid cq) := by
  unfold setCompletion at ran
  obtain ⟨-, ran⟩ | ⟨-, ran⟩ := ite_split ran
  · cases ran
  obtain ⟨-, ran⟩ | ⟨-, ran⟩ := ite_split ran
  · cases ran
  obtain ⟨-, ran⟩ | ⟨-, ran⟩ := ite_split ran
  · cases ran
  · cases ran
    rfl

theorem complete_puts (ran : complete q cid status tag s = .ok s') :
    ∃ sc, setCompletion q q cid status s.sc = .ok sc ∧
      s' = { s with
        sc := sc
        notes := .completed q (s.sc.submitQueues q).cqid cid tag s.epoch
          (lastPhase s.sc sc (s.sc.submitQueues q).cqid) :: s.notes } := by
  unfold complete at ran
  cases put : setCompletion q q cid status s.sc with
  | error fault =>
    rw [put] at ran
    cases ran
  | ok sc =>
    rw [put] at ran
    cases ran
    exact ⟨sc, rfl, rfl⟩

theorem submit_outcome (cfg : Config) (v q sqhead : Nat) (cmd : Command) (k : Nat) (input : Input)
    (s : Sys) : (∃ ranges, submit cfg v q sqhead cmd k input s = issue v q sqhead k ranges s) ∨
      ∃ status, submit cfg v q sqhead cmd k input s = s.put v (.failed q sqhead status k) := by
  unfold submit
  split
  · split
    · exact .inl ⟨_, rfl⟩
    · exact .inr ⟨_, rfl⟩
  · split
    · exact .inl ⟨_, rfl⟩
    · exact .inr ⟨_, rfl⟩

theorem callback_outcome {err accepts : Bool} (ran : callback k err accepts s = .ok s') :
    s' = s ∨ k ∈ s.inflight ∧
      ((∃ ranges, s' = { s with
          reqs := Function.update s.reqs k { s.reqs k with ranges := ranges } }) ∨
        (!err && accepts && decide ((s.reqs k).ranges ≠ 0)) = false ∧
          ∃ status t, complete (s.reqs k).q (s.reqs k).cid status (s.reqs k).tag s = .ok t ∧
            s' = { t with inflight := t.inflight.erase k, finished := k :: t.finished }) := by
  obtain ⟨member, ran⟩ | ⟨-, ran⟩ := ite_split ran
  · refine .inr ⟨member, ?_⟩
    dsimp only at ran
    obtain ⟨-, ran⟩ | ⟨last, ran⟩ := ite_split ran
    · cases ran
      exact .inl ⟨_, rfl⟩
    · refine .inr ⟨Bool.eq_false_iff.mpr last, ?_⟩
      generalize statusGenc _ = status at ran
      cases completed : complete (s.reqs k).q (s.reqs k).cid status (s.reqs k).tag s with
      | error fault =>
        rw [completed] at ran
        cases ran
      | ok t =>
        rw [completed] at ran
        cases ran
        exact ⟨status, t, completed, rfl⟩
  · cases ran
    exact .inl rfl

end

section
variable {host : Host} {cfg : Config} {s s' : Sys} {v : Nat} {input : Input}

def Accounts (cfg : Config) (s : Sys) : Prop :=
  Ledger cfg.ioslots s.threads s.inflight s.finished s.free s.pendingIos s.sem s.posts

structure SameRequests (s s' : Sys) : Prop where
  inflight : s'.inflight = s.inflight
  finished : s'.finished = s.finished
  free : s'.free = s.free
  pending : s'.pendingIos = s.pendingIos
  sem : s'.sem = s.sem
  posts : s'.posts = s.posts
  reqs : s'.reqs = s.reqs

theorem accounts_put {old new : Thread} (there : s.threads[v]? = some old)
    (same : SameRequests s s') (threads : s'.threads = s.threads.set v new)
    (held : new.held = old.held) (waiting : new.isWaiting = old.isWaiting)
    (posting : new.isPosting = old.isPosting) (accounts : Accounts cfg s) : Accounts cfg s' := by
  unfold Accounts
  rw [same.inflight, same.finished, same.free, same.pending, same.sem, same.posts, threads]
  exact ledger_put there accounts held waiting posting

variable {q sqhead : Nat} {tag : Tag} {cmd : Command}

theorem complete_same {cid status : BitVec 16} (ran : complete q cid status tag s = .ok s') :
    SameRequests s s' ∧ s'.threads = s.threads := by
  obtain ⟨sc, -, rfl⟩ := complete_puts ran
  exact ⟨⟨rfl, rfl, rfl, rfl, rfl, rfl, rfl⟩, rfl⟩

theorem admin_turn_outcome (ran : adminTurn host v sqhead cmd s = .ok s') :
    ∃ next sc notes, fetch 0 sqhead s.sc = .ok next ∧
      adminCompletion cmd next (adminCmd host cmd s.sc) = .ok sc ∧
      (notes = [] ∨ ∃ phase, notes = [.completed 0 0 cmd.cid (s.tag 0) s.epoch phase]) ∧
      s' = { (countCommand 0 sqhead cmd s).put v (.loop 0 next) with
        sc := sc, notes := notes ++ (countCommand 0 sqhead cmd s).notes } := by
  unfold adminTurn at ran
  cases fetched : fetch 0 sqhead s.sc with
  | error fault =>
    rw [fetched] at ran
    cases ran
  | ok next =>
    rw [fetched] at ran
    dsimp only at ran
    cases completed : adminCompletion cmd next (adminCmd host cmd s.sc) with
    | error fault =>
      rw [completed] at ran
      cases ran
    | ok sc =>
      rw [completed] at ran
      dsimp only at ran
      split at ran <;> cases ran
      · exact ⟨next, sc, [], rfl, completed, .inl rfl, rfl⟩
      · exact ⟨next, sc, [_], rfl, completed, .inr ⟨_, rfl⟩, rfl⟩

theorem io_fetch_outcome (ran : ioFetch v q sqhead cmd s = .ok s') :
    ∃ next, fetch q sqhead s.sc = .ok next ∧
      s' = (countCommand q sqhead cmd s).put v (.fetched q next cmd (s.tag q)) := by
  unfold ioFetch at ran
  cases fetched : fetch q sqhead s.sc with
  | error fault =>
    rw [fetched] at ran
    cases ran
  | ok next =>
    rw [fetched] at ran
    cases ran
    exact ⟨next, rfl, rfl⟩

theorem admin_turn_same (ran : adminTurn host v sqhead cmd s = .ok s') :
    SameRequests s s' ∧ ∃ next, s'.threads = s.threads.set v (.loop 0 next) := by
  obtain ⟨next, sc, notes, -, -, -, rfl⟩ := admin_turn_outcome ran
  exact ⟨⟨rfl, rfl, rfl, rfl, rfl, rfl, rfl⟩, next, rfl⟩

theorem io_fetch_same (ran : ioFetch v q sqhead cmd s = .ok s') :
    SameRequests s s' ∧ ∃ next tag, s'.threads = s.threads.set v (.fetched q next cmd tag) := by
  obtain ⟨next, -, rfl⟩ := io_fetch_outcome ran
  exact ⟨⟨rfl, rfl, rfl, rfl, rfl, rfl, rfl⟩, next, _, rfl⟩

theorem start_io_accounts (there : s.threads[v]? = some (.fetched q sqhead cmd tag))
    (accounts : Accounts cfg s) (ran : startIo cfg v q sqhead cmd tag input s = .ok s') :
    Accounts cfg s' := by
  have completes : ∀ status, complete q cmd.cid status tag (s.put v (.loop q sqhead)) = .ok s' →
      Accounts cfg s' := by
    intro status done
    obtain ⟨same, threads⟩ := complete_same done
    refine accounts_put there ⟨same.inflight, same.finished, same.free, same.pending, same.sem,
      same.posts, same.reqs⟩ threads rfl rfl rfl accounts
  obtain ⟨-, ran⟩ | ⟨-, ran⟩ := ite_split ran
  · exact completes _ ran
  obtain ⟨-, ran⟩ | ⟨-, ran⟩ := ite_split ran
  · exact completes _ ran
  obtain ⟨-, ran⟩ | ⟨positive, ran⟩ := ite_split ran
  · cases ran
    exact accounts
  · cases ran
    exact ledger_wait there accounts rfl rfl rfl rfl positive

theorem submit_accounts {q sqhead k : Nat} {cmd : Command}
    (there : s.threads[v]? = some (.holding q sqhead cmd k)) (accounts : Accounts cfg s) :
    Accounts cfg (submit cfg v q sqhead cmd k input s) := by
  obtain ⟨ranges, same⟩ | ⟨status, same⟩ := submit_outcome cfg v q sqhead cmd k input s
  · rw [same]
    exact ledger_issue there accounts rfl rfl rfl rfl
  · rw [same]
    exact ledger_put there accounts rfl rfl rfl

theorem get_ioreq_accounts (there : s.threads[v]? = some (.waiting q sqhead cmd tag))
    (accounts : Accounts cfg s) :
    ∃ s', getIoreq v q sqhead cmd tag s = .ok s' ∧ Accounts cfg s' := by
  unfold getIoreq
  cases list : s.free with
  | nil =>
    obtain ⟨waits, before, -⟩ := set_counts Thread.isWaiting there
    have total := accounts.sem
    rw [list, before] at total
    simp only [length_nil, Thread.isWaiting, if_true] at total
    omega
  | cons k rest =>
    refine ⟨_, rfl, ledger_take there rfl rfl rfl rfl rfl ?_⟩
    have kept := accounts
    unfold Accounts at kept
    rw [list] at kept
    exact kept

theorem callback_accounts {k : Nat} {err accepts : Bool} (accounts : Accounts cfg s)
    (ran : callback k err accepts s = .ok s') : Accounts cfg s' := by
  obtain rfl | ⟨member, ⟨ranges, rfl⟩ | ⟨-, status, t, completed, rfl⟩⟩ := callback_outcome ran
  · exact accounts
  · exact accounts
  · obtain ⟨same, threads⟩ := complete_same completed
    unfold Accounts
    rw [same.inflight, same.finished, same.free, same.pending, same.sem, same.posts, threads]
    exact ledger_end member accounts

theorem thread_step_accounts {thread : Thread} (there : s.threads[v]? = some thread)
    (accounts : Accounts cfg s) (ran : threadStep host cfg v input s thread = .ok s') :
    Accounts cfg s' := by
  cases thread with
  | idle =>
    cases ran
    exact accounts
  | rung q =>
    obtain ⟨-, ran⟩ | ⟨-, ran⟩ := ite_split ran
    · cases ran
      exact ledger_put there accounts rfl rfl rfl
    obtain ⟨-, ran⟩ | ⟨-, ran⟩ := ite_split ran
    · cases ran
      exact ledger_put there accounts rfl rfl rfl
    · cases ran
      exact ledger_put there accounts rfl rfl rfl
  | loaded sqhead =>
    obtain ⟨-, ran⟩ | ⟨-, ran⟩ := ite_split ran
    · cases ran
      exact ledger_put there accounts rfl rfl rfl
    · cases ran
      exact ledger_put there accounts rfl rfl rfl
  | claimed q =>
    cases ran
    exact ledger_put there accounts rfl rfl rfl
  | loop q sqhead =>
    obtain ⟨-, ran⟩ | ⟨-, ran⟩ := ite_split ran
    · cases ran
      exact ledger_put there accounts rfl rfl rfl
    obtain ⟨-, ran⟩ | ⟨-, ran⟩ := ite_split ran
    · obtain ⟨same, next, threads⟩ := admin_turn_same ran
      exact accounts_put there same threads rfl rfl rfl accounts
    · obtain ⟨same, next, tag, threads⟩ := io_fetch_same ran
      exact accounts_put there same threads rfl rfl rfl accounts
  | fetched q sqhead cmd tag => exact start_io_accounts there accounts ran
  | waiting q sqhead cmd tag =>
    obtain ⟨t, took, kept⟩ := get_ioreq_accounts there accounts
    cases took.symm.trans ran
    exact kept
  | holding q sqhead cmd k =>
    cases ran
    exact submit_accounts there accounts
  | failed q sqhead status k =>
    obtain ⟨same, threads⟩ := complete_same ran
    exact accounts_put there ⟨same.inflight, same.finished, same.free, same.pending, same.sem,
      same.posts, same.reqs⟩ threads rfl rfl rfl accounts
  | releasing q sqhead k =>
    cases ran
    exact ledger_put_back there accounts rfl rfl rfl rfl rfl
  | posting q sqhead =>
    cases ran
    exact ledger_post there accounts rfl rfl rfl rfl
  | leaving q sqhead =>
    cases ran
    exact ledger_put there accounts rfl rfl rfl
  | clearing q =>
    cases ran
    exact ledger_put there accounts rfl rfl rfl

theorem doorbell_accounts {idx : Nat} {isSq : Bool} {value : BitVec 16}
    (there : s.threads[v]? = some .idle) (accounts : Accounts cfg s) :
    Accounts cfg (doorbell v idx isSq value s) := by
  unfold doorbell
  split
  · exact accounts
  · split
    · dsimp only
      split
      · exact ledger_put there accounts rfl rfl rfl
      · exact accounts
    · split <;> exact accounts

theorem sys_step_accounts (s : Sys) (e : Event) (s' : Sys) (accounts : Accounts cfg s)
    (ran : sysStep host cfg s e = .ok s') : Accounts cfg s' := by
  cases e with
  | doorbell v idx isSq value =>
    obtain ⟨there, ran⟩ | ⟨-, ran⟩ := ite_split ran
    · cases ran
      exact doorbell_accounts there accounts
    · cases ran
      exact accounts
  | reg offset value =>
    cases ran
    exact accounts
  | step v input =>
    simp only [sysStep] at ran
    split at ran
    · next thread there => exact thread_step_accounts there accounts ran
    · cases ran
      exact accounts
  | callback k err accepts => exact callback_accounts accounts ran
  | release k =>
    obtain ⟨member, ran⟩ | ⟨-, ran⟩ := ite_split ran
    · cases ran
      exact ledger_release member accounts
    · cases ran
      exact accounts
  | post =>
    obtain ⟨-, ran⟩ | ⟨positive, ran⟩ := ite_split ran
    · cases ran
      exact accounts
    · cases ran
      refine ⟨accounts.slots, accounts.pending, ?_⟩
      have total := accounts.sem
      show s.free.length = s.sem + 1 + s.threads.countP Thread.isWaiting +
        s.threads.countP Thread.isPosting + (s.posts - 1)
      omega

theorem init_accounts (cfg : Config) (maxQueues vcpus : Nat) :
    Accounts cfg (sysInit cfg maxQueues vcpus) := by
  have none_held : (List.replicate vcpus Thread.idle).flatMap Thread.held = [] := by
    simp [Thread.held]
  refine ⟨?_, ?_, ?_⟩
  · show ((List.replicate vcpus Thread.idle).flatMap Thread.held ++ _).Perm _
    rw [none_held]
    exact List.Perm.refl _
  · show 0 = ((List.replicate vcpus Thread.idle).flatMap Thread.held).length + 0 + 0
    rw [none_held]
    rfl
  · simp [sysInit, Thread.isWaiting, Thread.isPosting, countP_replicate]

end
end Nvme
