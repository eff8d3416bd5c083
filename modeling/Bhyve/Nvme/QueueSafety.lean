import Bhyve.Nvme.Isolation
import Bhyve.Lib.Rings

namespace Nvme
open StepRuns Tables Fallible Rings Function
open List hiding mem_set

def CqReady (cq : CompletionQueue) : Prop := cq.qbase ≠ none ∧ cq.tail < cq.size

def Completes (sc : Softc) (q : Nat) : Prop :=
  (sc.submitQueues q).cqid ≤ sc.maxQueues ∧ CqReady (sc.complQueues (sc.submitQueues q).cqid)

structure SqReady (maxQueues q : Nat) (sq : SubmissionQueue) : Prop where
  inside : q ≤ maxQueues
  qbase : sq.qbase ≠ none
  head : sq.head < sq.size
  tail : sq.tail < sq.size

def Thread.queue : Thread → Option Nat
  | .idle => none
  | .rung q => some q
  | .loaded _ => some 0
  | .claimed q => some q
  | .loop q _ => some q
  | .fetched q _ _ _ => some q
  | .waiting q _ _ _ => some q
  | .holding q _ _ _ => some q
  | .failed q _ _ _ => some q
  | .releasing q _ _ => some q
  | .posting q _ => some q
  | .leaving q _ => some q
  | .clearing q => some q

def Thread.sqhead : Thread → Option Nat
  | .loaded sqhead => some sqhead
  | .loop _ sqhead => some sqhead
  | .fetched _ sqhead _ _ => some sqhead
  | .waiting _ sqhead _ _ => some sqhead
  | .holding _ sqhead _ _ => some sqhead
  | .failed _ sqhead _ _ => some sqhead
  | .releasing _ sqhead _ => some sqhead
  | .posting _ sqhead => some sqhead
  | .leaving _ sqhead => some sqhead
  | _ => none

def WorksOn (s : Sys) (q : Nat) : Prop := ∃ t ∈ s.threads, t.queue = some q

def Awaited (s : Sys) (q : Nat) : Prop := ∃ k ∈ s.inflight, (s.reqs k).q = q

def LeavesQueues (s : Sys) (cmd : Command) : Prop :=
  let qid := low16 cmd.cdw10
  qid ≠ 0 →
    (cmd.opc = opcDeleteIoSq → ¬ WorksOn s qid) ∧
    (cmd.opc = opcCreateIoSq → ¬ WorksOn s qid ∧ ¬ Awaited s qid) ∧
    (cmd.opc = opcDeleteIoCq ∨ cmd.opc = opcCreateIoCq →
      (∀ t ∈ s.threads, ∀ q ∈ t.queue, (s.sc.submitQueues q).cqid ≠ qid) ∧
        ∀ k ∈ s.inflight, (s.sc.submitQueues (s.reqs k).q).cqid ≠ qid)

def TakesCommand (s : Sys) (cmd : Command) : Option Thread → Prop
  | some (.loop 0 _) => LeavesQueues s cmd
  | _ => True

def toggles (sc : Softc) (offset : Nat) (value : BitVec 32) : Bool :=
  decide (offset = crCc) && decide (value.getLsbD 0 ≠ sc.en)

/-- What the guest has to see to: it rings a submission queue whose entries and whose completion
    queue are in memory, with a tail inside it; it turns the controller on and off while nothing is
    going on; and it leaves the queues in use alone. -/
def Disciplined (s : Sys) : Event → Prop
  | .doorbell v idx isSq value =>
      s.threads[v]? = some .idle → isSq = true → idx ≤ s.sc.maxQueues →
        idx = 0 ∨ idx ≤ s.sc.numSqueues ∨ WorksOn s idx →
        SqReady s.sc.maxQueues idx { s.sc.submitQueues idx with tail := value.toNat } ∧
          Completes s.sc idx
  | .reg offset value =>
      toggles s.sc offset value = true → (∀ t ∈ s.threads, t = .idle) ∧ s.inflight = []
  | .step v input => TakesCommand s input.cmd s.threads[v]?
  | _ => True

def ByItself (v : Nat) : Event → Prop
  | .step w _ => w = v
  | .callback _ _ _ => True
  | .release _ => True
  | .post => True
  | _ => False

def goesOn (cfg : Config) (s : Sys) : Event → Bool
  | .step v _ =>
      match s.threads[v]? with
      | none => false
      | some .idle => false
      | some (.fetched _ _ cmd _) =>
          completesAtOnce cmd || cfg.ram || decide (s.sem ≠ 0)
      | some _ => true
  | _ => false

def stepsTaken (host : Host) (cfg : Config) : Sys → List Event → Nat
  | _, [] => 0
  | s, e :: rest =>
      (if goesOn cfg s e then 1 else 0) +
        match sysStep host cfg s e with
        | .ok s' => stepsTaken host cfg s' rest
        | .error _ => 0

def sizeOf (s : Sys) (v : Nat) : Nat :=
  ((s.threads[v]?.bind Thread.queue).map fun q => (s.sc.submitQueues q).size).getD 0

/-- The handler of a thread returns after so many steps, whatever it finds in the queue and whatever
    the block device does meanwhile. -/
def Returns (host : Host) (cfg : Config) (s : Sys) (v : Nat) : Prop :=
  ∀ events, (∀ e ∈ events, ByItself v e) → stepsTaken host cfg s events ≤ 8 * sizeOf s v + 8

def SafeStep (host : Host) (cfg : Config) (s : Sys) (e : Event) : Prop :=
  ∃ s', sysStep host cfg s e = .ok s' ∧ ∀ v, v < s'.threads.length → Returns host cfg s' v

section
variable {host : Host}

structure Feeds (sc sc' : Softc) (q : Nat) : Prop where
  max : sc'.maxQueues = sc.maxQueues
  cqid : (sc'.submitQueues q).cqid = (sc.submitQueues q).cqid
  cq : CqReady (sc.complQueues (sc.submitQueues q).cqid) →
    CqReady (sc'.complQueues (sc.submitQueues q).cqid)

structure Serves (sc sc' : Softc) (q : Nat) : Prop extends Feeds sc sc' q where
  size : (sc'.submitQueues q).size = (sc.submitQueues q).size
  sq : SqReady sc.maxQueues q (sc.submitQueues q) → SqReady sc.maxQueues q (sc'.submitQueues q)

variable {sc sc' : Softc} {q : Nat}

theorem serves_same (max : sc'.maxQueues = sc.maxQueues)
    (sq : sc'.submitQueues q = sc.submitQueues q)
    (cq : CqReady (sc.complQueues (sc.submitQueues q).cqid) → CqReady (sc'.complQueues (sc.submitQueues q).cqid)) :
    Serves sc sc' q := by
  refine ⟨⟨max, ?_, cq⟩, ?_, ?_⟩
  · rw [sq]
  · rw [sq]
  · rw [sq]
    exact fun ready => ready

theorem serves_self (sc : Softc) (q : Nat) : Serves sc sc q :=
  serves_same rfl rfl fun ready => ready

theorem feeds_completes (feeds : Feeds sc sc' q) (completes : Completes sc q) :
    Completes sc' q := by
  unfold Completes
  rw [feeds.cqid, feeds.max]
  exact ⟨completes.1, feeds.cq completes.2⟩

theorem put_completion_ready {cq : CompletionQueue} (c : Completion) (ready : CqReady cq) :
    CqReady (putCompletion cq c) :=
  ⟨ready.1, Nat.mod_lt _ (Nat.zero_lt_of_lt ready.2)⟩

theorem set_cq_serves {c : Nat} {cq : CompletionQueue}
    (ready : CqReady (sc.complQueues c) → CqReady cq) (q : Nat) : Serves sc (sc.setCq c cq) q := by
  refine serves_same rfl rfl fun before => ?_
  show CqReady (update sc.complQueues c cq _)
  by_cases same : (sc.submitQueues q).cqid = c
  · rw [same, update_self]
    exact ready (same ▸ before)
  · rw [update_of_ne same]
    exact before

theorem notify_io_serves (cq : CompletionQueue) (serves : Serves sc sc' q) :
    Serves sc (notifyIo cq sc') q := by
  unfold notifyIo
  split
  · exact ⟨⟨serves.max, serves.cqid, serves.cq⟩, serves.size, serves.sq⟩
  · exact serves

theorem set_completion_goes (sqid : Nat) (cid status : BitVec 16) (completes : Completes sc q) :
    ∃ sc', setCompletion q sqid cid status sc = .ok sc' ∧ ∀ p, Serves sc sc' p := by
  obtain ⟨inside, base, room⟩ := completes
  let cq := putCompletion (sc.complQueues (sc.submitQueues q).cqid)
    ⟨0, sqid, (sc.submitQueues q).head, cid, status⟩
  refine ⟨notifyIo cq (sc.setCq (sc.submitQueues q).cqid cq), ?_, fun p => ?_⟩
  · unfold setCompletion
    rw [if_neg (by omega), if_neg base, if_neg (by omega)]
  · exact notify_io_serves cq (set_cq_serves (fun ready => put_completion_ready _ ready) p)

theorem fetch_goes {sqhead : Nat} (ready : SqReady sc.maxQueues q (sc.submitQueues q))
    (inside : sqhead < (sc.submitQueues q).size) :
    fetch q sqhead sc = .ok ((sqhead + 1) % (sc.submitQueues q).size) := by
  have max := ready.inside
  unfold fetch
  rw [if_neg (by omega), if_neg ready.qbase, if_neg (by omega), if_neg (by omega)]

theorem admin_cmd_serves (cmd : Command)
    (sq : low16 cmd.cdw10 = q → q ≠ 0 → cmd.opc ≠ opcCreateIoSq)
    (cq : cmd.opc = opcDeleteIoCq ∨ cmd.opc = opcCreateIoCq → low16 cmd.cdw10 ≠ 0 → (sc.submitQueues q).cqid ≠ low16 cmd.cdw10) :
    Feeds sc (adminCmd host cmd sc).sc q ∧
      ((low16 cmd.cdw10 = q → q ≠ 0 → cmd.opc ≠ opcDeleteIoSq) →
        Serves sc (adminCmd host cmd sc).sc q) := by
  have both : ∀ sc', Serves sc sc' q → Feeds sc sc' q ∧
      ((low16 cmd.cdw10 = q → q ≠ 0 → cmd.opc ≠ opcDeleteIoSq) → Serves sc sc' q) :=
    fun _ serves => ⟨serves.toFeeds, fun _ => serves⟩
  have here := both sc (serves_self sc q)
  have other_sq : ∀ new, low16 cmd.cdw10 ≠ q → Serves sc (sc.setSq (low16 cmd.cdw10) new) q :=
    fun new apart => serves_same rfl (update_of_ne (Ne.symm apart) ..) fun ready => ready
  have other_cq : ∀ new, (sc.submitQueues q).cqid ≠ low16 cmd.cdw10 →
      Serves sc (sc.setCq (low16 cmd.cdw10) new) q := by
    refine fun new apart => serves_same rfl rfl fun ready => ?_
    show CqReady (update sc.complQueues (low16 cmd.cdw10) new _)
    rw [update_of_ne apart]
    exact ready
  refine admin_cmd_cases (p := fun result => Feeds sc result.sc q ∧
    ((low16 cmd.cdw10 = q → q ≠ 0 → cmd.opc ≠ opcDeleteIoSq) → Serves sc result.sc q))
    ?same ?waits ?deleteSq ?createSq ?setCq ?numbers ?coalesced
  case same => exact fun _ _ => here
  case waits => exact fun _ => here
  case deleteSq =>
    intro deletes some_ x
    refine ⟨⟨rfl, ?_, fun ready => ready⟩, fun apart => other_sq _ fun same => ?_⟩
    · show (update sc.submitQueues _ _ q).cqid = _
      by_cases same : q = low16 cmd.cdw10
      · subst same
        rw [update_self]
      · rw [update_of_ne same]
    · exact apart same (fun zero => some_ (same.trans zero)) deletes
  case createSq =>
    intro creates some_ new x
    refine both _ (other_sq _ fun same => ?_)
    exact sq same (fun zero => some_ (same.trans zero)) creates
  case setCq =>
    intro either some_ new x
    exact both _ (other_cq _ (cq either some_))
  case numbers => exact fun _ _ _ _ => both _ (serves_same rfl rfl fun ready => ready)
  case coalesced =>
    intro _ x
    refine both _ (serves_same rfl rfl fun ready => ?_)
    unfold coalesce
    dsimp only
    split <;> exact ready

theorem admin_completion_goes {cmd : Command} {sqhead : Nat} {result : AdminResult}
    (ready : CqReady (result.sc.complQueues 0)) :
    ∃ sc, adminCompletion cmd sqhead result = .ok sc ∧ ∀ q, Serves result.sc sc q := by
  unfold adminCompletion
  split
  · exact ⟨_, rfl, serves_self result.sc⟩
  · next cdw0 status _ =>
    have base := ready.1
    have room := ready.2
    rw [if_neg base, if_neg (by omega)]
    exact ⟨_, rfl, set_cq_serves fun ready => put_completion_ready _ ready⟩

theorem feeds_trans {sc'' : Softc} (first : Feeds sc sc' q) (second : Feeds sc' sc'' q) :
    Feeds sc sc'' q := by
  refine ⟨second.max.trans first.max, second.cqid.trans first.cqid, fun ready => ?_⟩
  have between := second.cq
  rw [first.cqid] at between
  exact between (first.cq ready)

theorem serves_trans {sc'' : Softc} (first : Serves sc sc' q) (second : Serves sc' sc'' q) :
    Serves sc sc'' q := by
  refine ⟨feeds_trans first.toFeeds second.toFeeds, second.size.trans first.size, fun ready => ?_⟩
  have between := second.sq
  rw [first.max] at between
  exact between (first.sq ready)

theorem set_busy_serves (q : Nat) (busy : Bool) (sc : Softc) (p : Nat) :
    Serves sc (setBusy q busy sc) p := by
  by_cases same : p = q
  · subst same
    refine ⟨⟨rfl, ?_, fun ready => ready⟩, ?_, fun ready => ?_⟩ <;>
      simp [setBusy, Softc.setSq]
    exact ⟨ready.inside, ready.qbase, ready.head, ready.tail⟩
  · exact serves_same rfl (update_of_ne same ..) fun ready => ready

theorem store_head_serves {sqhead : Nat} (inside : sqhead < (sc.submitQueues q).size) (p : Nat) :
    Serves sc (storeHead q sqhead sc) p := by
  by_cases same : p = q
  · subst same
    refine ⟨⟨rfl, ?_, fun ready => ready⟩, ?_, fun ready => ?_⟩ <;>
      simp [storeHead, Softc.setSq]
    exact ⟨ready.inside, ready.qbase, inside, ready.tail⟩
  · exact serves_same rfl (update_of_ne same ..) fun ready => ready

theorem notify_admin_serves (q : Nat) {p : Nat} (serves : Serves sc sc' p) :
    Serves sc (notifyAdmin q sc') p := by
  unfold notifyAdmin
  split
  · exact ⟨⟨serves.max, serves.cqid, serves.cq⟩, serves.size, serves.sq⟩
  · exact serves

end

section
variable {host : Host} {cfg : Config} {s s' : Sys} {v : Nat} {input : Input}

structure Thread.Served (sc : Softc) (t : Thread) : Prop where
  queue : ∀ q, t.queue = some q →
    SqReady sc.maxQueues q (sc.submitQueues q) ∧ Completes sc q
  sqhead : ∀ q sqhead, t.queue = some q → t.sqhead = some sqhead →
    sqhead < (sc.submitQueues q).size

def Thread.Filled (reqs : Nat → Ioreq) : Thread → Prop
  | .holding q _ _ k => (reqs k).q = q
  | _ => True

structure Service (cfg : Config) (s : Sys) : Prop where
  accounts : Accounts cfg s
  admin : (s.sc.submitQueues 0).cqid = 0
  threads : ∀ t ∈ s.threads, t.Served s.sc
  filled : ∀ t ∈ s.threads, t.Filled s.reqs
  inflight : ∀ k ∈ s.inflight, Completes s.sc (s.reqs k).q

variable {sc : Softc} {thread new : Thread} {q sqhead k : Nat} {tag : Tag} {cmd : Command}

theorem served_kept {t : Thread} {sc' : Softc} (serves : ∀ q, t.queue = some q → Serves sc sc' q)
    (served : t.Served sc) : t.Served sc' := by
  refine ⟨fun q works => ?_, fun q sqhead works reads => ?_⟩
  · have kept := serves q works
    obtain ⟨ready, completes⟩ := served.queue q works
    rw [kept.max]
    exact ⟨kept.sq ready, feeds_completes kept.toFeeds completes⟩
  · rw [(serves q works).size]
    exact served.sqhead q sqhead works reads

section
variable (service : Service cfg s) (there : s.threads[v]? = some thread)
  (accounts : Accounts cfg s') (threads : s'.threads = s.threads.set v new)
  (serves : ∀ q, WorksOn s q → Serves s.sc s'.sc q)
include service there accounts threads serves

theorem service_moves (admin : Feeds s.sc s'.sc 0) (next : thread.Served s'.sc → new.Served s'.sc)
    (reqs : ∀ t ∈ s.threads, t.Filled s.reqs → t.Filled s'.reqs)
    (filled : thread.Filled s.reqs → new.Filled s'.reqs)
    (inflight : ∀ k ∈ s'.inflight, Completes s'.sc (s'.reqs k).q) : Service cfg s' where
  accounts := accounts
  admin := by
    rw [admin.cqid]
    exact service.admin
  threads := by
    have kept : ∀ t ∈ s.threads, t.Served s'.sc := fun t member =>
      served_kept (fun q works => serves q ⟨t, member, works⟩) (service.threads t member)
    intro t member
    rw [threads] at member
    rcases mem_set member with rfl | old
    · exact next (kept thread (mem_of_getElem? there))
    · exact kept t old
  filled := by
    intro t member
    rw [threads] at member
    rcases mem_set member with rfl | old
    · exact filled (service.filled thread (mem_of_getElem? there))
    · exact reqs t old (service.filled t old)
  inflight := inflight

theorem service_goes (feeds : ∀ q, Awaited s q → Feeds s.sc s'.sc q) (admin : Feeds s.sc s'.sc 0)
    (next : thread.Served s'.sc → new.Served s'.sc) (filled : new.Filled s.reqs)
    (reqs : s'.reqs = s.reqs) (inflight : s'.inflight = s.inflight) : Service cfg s' := by
  refine service_moves service there accounts threads serves admin next ?_ ?_ ?_
  · intro t _ before
    rw [reqs]
    exact before
  · intro _
    rw [reqs]
    exact filled
  · intro k member
    rw [inflight] at member
    rw [reqs]
    exact feeds_completes (feeds _ ⟨k, member, rfl⟩) (service.inflight k member)

end

theorem complete_goes {q : Nat} {cid status : BitVec 16} {tag : Tag}
    (completes : Completes s.sc q) :
    ∃ s', complete q cid status tag s = .ok s' ∧ ∀ p, Serves s.sc s'.sc p := by
  obtain ⟨sc, put, serves⟩ := set_completion_goes q cid status completes
  unfold complete
  rw [put]
  exact ⟨_, rfl, serves⟩

theorem complete_service {cid status : BitVec 16} (service : Service cfg s)
    (there : s.threads[v]? = some thread) (works : thread.queue = some q)
    (held : new.held = thread.held) (waiting : new.isWaiting = thread.isWaiting)
    (posting : new.isPosting = thread.isPosting) (next : ∀ sc, thread.Served sc → new.Served sc)
    (filled : new.Filled s.reqs) :
    ∃ s', complete q cid status tag (s.put v new) = .ok s' ∧ Service cfg s' := by
  have completes := ((service.threads thread (mem_of_getElem? there)).queue q works).2
  obtain ⟨s', done, serves⟩ :=
    @complete_goes (s.put v new) q cid status tag completes
  obtain ⟨same, threads⟩ := complete_same done
  exact ⟨s', done, service_goes service there
    (accounts_put there ⟨same.inflight, same.finished, same.free, same.pending, same.sem, same.posts,
      same.reqs⟩ threads held waiting posting service.accounts) threads (fun p _ => serves p)
    (fun p _ => (serves p).toFeeds) (serves 0).toFeeds (next s'.sc) filled same.reqs same.inflight⟩

theorem start_io_service (service : Service cfg s)
    (there : s.threads[v]? = some (.fetched q sqhead cmd tag)) :
    ∃ s', startIo cfg v q sqhead cmd tag input s = .ok s' ∧ Service cfg s' := by
  have completes : ∀ status, ∃ s', complete q cmd.cid status tag (s.put v (.loop q sqhead)) = .ok s' ∧
      Service cfg s' := fun status =>
    complete_service service there rfl rfl rfl rfl
      (fun _ served => ⟨served.queue, served.sqhead⟩) trivial
  unfold startIo
  split
  · exact completes _
  split
  · exact completes _
  split
  · exact ⟨s, rfl, service⟩
  · next positive =>
    refine ⟨_, rfl, service_goes service there ?_ rfl (fun q _ => serves_self s.sc q)
      (fun q _ => (serves_self s.sc q).toFeeds) (serves_self s.sc 0).toFeeds
      (fun served => ⟨served.queue, served.sqhead⟩) trivial rfl rfl⟩
    exact ledger_wait there service.accounts rfl rfl rfl rfl positive

theorem free_alone (accounts : Accounts cfg s) (listed : k ∈ s.free) :
    k ∉ s.inflight ∧ ∀ t ∈ s.threads, k ∉ t.held := by
  have all := accounts.slots.nodup_iff.mpr nodup_range
  obtain ⟨-, rest, apart⟩ := List.nodup_append.mp all
  refine ⟨fun member => ?_, fun t inside held => ?_⟩
  · obtain ⟨-, -, later⟩ := List.nodup_append.mp rest
    exact later k member k (mem_append_right _ listed) rfl
  · refine apart k (List.mem_flatMap.mpr ⟨t, inside, held⟩) k ?_ rfl
    exact mem_append_right _ (mem_append_right _ listed)

theorem get_ioreq_service (service : Service cfg s)
    (there : s.threads[v]? = some (.waiting q sqhead cmd tag)) :
    ∃ s', getIoreq v q sqhead cmd tag s = .ok s' ∧ Service cfg s' := by
  obtain ⟨s', ran, accounts⟩ := get_ioreq_accounts there service.accounts
  refine ⟨s', ran, ?_⟩
  unfold getIoreq at ran
  cases list : s.free with
  | nil =>
    rw [list] at ran
    cases ran
  | cons k rest =>
    rw [list] at ran
    cases ran
    obtain ⟨not_inflight, not_held⟩ := free_alone service.accounts (list ▸ mem_cons_self)
    refine service_moves service there accounts rfl (fun q _ => serves_self s.sc q)
      (serves_self s.sc 0).toFeeds (fun served => ⟨served.queue, served.sqhead⟩) ?_ ?_ ?_
    · intro t member filled
      cases t with
      | holding p h c j =>
        show (update s.reqs k _ j).q = p
        have apart : j ≠ k := by
          rintro rfl
          exact not_held _ member (mem_singleton_self j)
        rw [update_of_ne apart]
        exact filled
      | _ => trivial
    · intro _
      show (update s.reqs k _ k).q = q
      rw [update_self]
    · intro j member
      show Completes s.sc (update s.reqs k _ j).q
      have apart : j ≠ k := by
        rintro rfl
        exact not_inflight member
      rw [update_of_ne apart]
      exact service.inflight j member

theorem ranges_queue (reqs : Nat → Ioreq) (k ranges j : Nat) :
    (update reqs k { reqs k with ranges := ranges } j).q = (reqs j).q := by
  by_cases same : j = k
  · rw [same, update_self]
  · rw [update_of_ne same]

theorem ranges_filled {t : Thread} (ranges : Nat) (filled : t.Filled s.reqs) :
    t.Filled (update s.reqs k { s.reqs k with ranges := ranges }) := by
  cases t with
  | holding p h c j => exact (ranges_queue s.reqs k ranges j).trans filled
  | _ => trivial

theorem submit_service (service : Service cfg s)
    (there : s.threads[v]? = some (.holding q sqhead cmd k)) :
    Service cfg (submit cfg v q sqhead cmd k input s) := by
  have accounts := @submit_accounts cfg s v input q sqhead k cmd there service.accounts
  have here := mem_of_getElem? there
  have filled : (s.reqs k).q = q := service.filled _ here
  obtain ⟨ranges, same⟩ | ⟨status, same⟩ := submit_outcome cfg v q sqhead cmd k input s
  · rw [same] at accounts ⊢
    refine service_moves service there accounts rfl (fun q _ => serves_self s.sc q)
      (serves_self s.sc 0).toFeeds (fun served => ⟨served.queue, served.sqhead⟩)
      (fun t member before => ranges_filled ranges before) (fun _ => trivial) fun j member => ?_
    show Completes s.sc (update s.reqs k _ j).q
    rw [ranges_queue]
    rcases List.mem_cons.mp member with rfl | old
    · rw [filled]
      exact ((service.threads _ here).queue q rfl).2
    · exact service.inflight j old
  · rw [same] at accounts ⊢
    exact service_goes service there accounts rfl (fun q _ => serves_self s.sc q)
      (fun q _ => (serves_self s.sc q).toFeeds) (serves_self s.sc 0).toFeeds
      (fun served => ⟨served.queue, served.sqhead⟩) trivial rfl rfl

theorem admin_turn_service (cmd : Command) (service : Service cfg s)
    (there : s.threads[v]? = some (.loop 0 sqhead)) (leaves : LeavesQueues s cmd) :
    ∃ s', adminTurn host v sqhead cmd s = .ok s' ∧ Service cfg s' := by
  have here := mem_of_getElem? there
  have works : WorksOn s 0 := ⟨_, here, rfl⟩
  obtain ⟨ready, completes⟩ := (service.threads _ here).queue 0 rfl
  have inside := (service.threads _ here).sqhead 0 sqhead rfl rfl
  have both : ∀ q, WorksOn s q ∨ Awaited s q → Feeds s.sc (adminCmd host cmd s.sc).sc q ∧
      ((low16 cmd.cdw10 = q → q ≠ 0 → cmd.opc ≠ opcDeleteIoSq) →
        Serves s.sc (adminCmd host cmd s.sc).sc q) := by
    refine fun q uses => admin_cmd_serves cmd (fun same legal creates => ?_) (fun op legal => ?_)
    · have kept := leaves (same ▸ legal)
      rw [same] at kept
      exact uses.elim (kept.2.1 creates).1 (kept.2.1 creates).2
    · obtain ⟨working, waited⟩ := (leaves legal).2.2 op
      rcases uses with ⟨t, member, works⟩ | ⟨k, member, rfl⟩
      · exact working t member q works
      · exact waited k member
  have serves : ∀ q, WorksOn s q → Serves s.sc (adminCmd host cmd s.sc).sc q := by
    refine fun q uses => (both q (.inl uses)).2 fun same legal deletes => ?_
    have kept := leaves (same ▸ legal)
    rw [same] at kept
    exact kept.1 deletes uses
  have ready_cq : CqReady ((adminCmd host cmd s.sc).sc.complQueues 0) := by
    have kept := (serves 0 works).cq completes.2
    rw [service.admin] at kept
    exact kept
  obtain ⟨sc, completed, after⟩ :=
    @admin_completion_goes cmd ((sqhead + 1) % (s.sc.submitQueues 0).size) _ ready_cq
  have goes : ∃ s', adminTurn host v sqhead cmd s = .ok s' ∧ s'.sc = sc ∧
      s'.threads = s.threads.set v (.loop 0 ((sqhead + 1) % (s.sc.submitQueues 0).size)) := by
    unfold adminTurn
    rw [fetch_goes ready inside]
    dsimp only
    rw [completed]
    dsimp only
    split <;> exact ⟨_, rfl, rfl, rfl⟩
  obtain ⟨s', ran, rfl, threads⟩ := goes
  obtain ⟨same, -⟩ := admin_turn_same ran
  have whole := serves_trans (serves 0 works) (after 0)
  refine ⟨s', ran, service_goes service there
    (accounts_put there same threads rfl rfl rfl service.accounts) threads
    (fun q uses => serves_trans (serves q uses) (after q))
    (fun q uses => feeds_trans (both q (.inr uses)).1 (after q).toFeeds) whole.toFeeds ?_ trivial
    same.reqs same.inflight⟩
  refine fun served => ⟨served.queue, fun q next works reads => ?_⟩
  cases works
  cases reads
  rw [whole.size]
  exact Nat.mod_lt _ (Nat.zero_lt_of_lt inside)

theorem io_fetch_service (cmd : Command) (service : Service cfg s)
    (there : s.threads[v]? = some (.loop q sqhead)) :
    ∃ s', ioFetch v q sqhead cmd s = .ok s' ∧ Service cfg s' := by
  have here := mem_of_getElem? there
  obtain ⟨ready, -⟩ := (service.threads _ here).queue q rfl
  have inside := (service.threads _ here).sqhead q sqhead rfl rfl
  have goes : ioFetch v q sqhead cmd s = .ok ((countCommand q sqhead cmd s).put v
      (.fetched q ((sqhead + 1) % (s.sc.submitQueues q).size) cmd (s.tag q))) := by
    unfold ioFetch
    rw [fetch_goes ready inside]
  refine ⟨_, goes, service_goes service there (ledger_put there service.accounts rfl rfl rfl) rfl
    (fun q _ => serves_self s.sc q) (fun q _ => (serves_self s.sc q).toFeeds)
    (serves_self s.sc 0).toFeeds (fun served => ⟨served.queue, fun p next works reads => ?_⟩) trivial
    rfl rfl⟩
  cases works
  cases reads
  exact Nat.mod_lt _ (Nat.zero_lt_of_lt inside)

theorem release_serves (k q : Nat) : Serves s.sc (releaseIoreq k s).sc q := by
  unfold releaseIoreq
  dsimp only
  split
  · exact serves_same rfl rfl fun ready => ready
  · exact serves_self s.sc q

theorem thread_step_service (there : s.threads[v]? = some thread) (service : Service cfg s)
    (leaves : ∀ sqhead, thread = .loop 0 sqhead → LeavesQueues s input.cmd) :
    ∃ s', threadStep host cfg v input s thread = .ok s' ∧ Service cfg s' := by
  have here := mem_of_getElem? there
  have served := service.threads thread here
  have moves : ∀ (new : Thread) (sc : Softc), (∀ q, Serves s.sc sc q) → new.held = thread.held →
      new.isWaiting = thread.isWaiting → new.isPosting = thread.isPosting →
      (thread.Served sc → new.Served sc) → new.Filled s.reqs →
      Service cfg ({ s with sc := sc }.put v new) := by
    intro new sc serves held waiting posting next filled
    exact service_goes service there (ledger_put there service.accounts held waiting posting) rfl
      (fun q _ => serves q) (fun q _ => (serves q).toFeeds) (serves 0).toFeeds next filled rfl rfl
  have idles : ∀ sc, Thread.Served sc .idle := fun sc =>
    ⟨nofun, nofun⟩
  have stays := serves_self s.sc
  cases thread with
  | idle => exact ⟨s, rfl, service⟩
  | rung q =>
    simp only [threadStep]
    split
    · next zero =>
      subst zero
      refine ⟨_, rfl, moves _ s.sc stays rfl rfl rfl (fun served => ⟨served.queue, ?_⟩) trivial⟩
      intro q sqhead works reads
      cases works
      cases reads
      exact (served.queue 0 rfl).1.head
    · split
      · exact ⟨_, rfl, moves _ s.sc stays rfl rfl rfl (fun _ => idles _) trivial⟩
      · exact ⟨_, rfl, moves _ (setBusy q true s.sc) (set_busy_serves q true s.sc) rfl rfl rfl
          (fun served => ⟨served.queue, nofun⟩) trivial⟩
  | loaded sqhead =>
    simp only [threadStep]
    split
    · exact ⟨_, rfl, moves _ s.sc stays rfl rfl rfl (fun _ => idles _) trivial⟩
    · exact ⟨_, rfl, moves _ (setBusy 0 true s.sc) (set_busy_serves 0 true s.sc) rfl rfl rfl
        (fun served => ⟨served.queue, served.sqhead⟩) trivial⟩
  | claimed q =>
    refine ⟨_, rfl, moves _ s.sc stays rfl rfl rfl (fun served => ⟨served.queue, ?_⟩) trivial⟩
    intro p sqhead works reads
    cases works
    cases reads
    exact (served.queue q rfl).1.head
  | loop q sqhead =>
    simp only [threadStep]
    split
    · exact ⟨_, rfl, moves _ s.sc stays rfl rfl rfl
        (fun served => ⟨served.queue, served.sqhead⟩) trivial⟩
    · split
      · next zero =>
        subst zero
        exact admin_turn_service input.cmd service there (leaves sqhead rfl)
      · exact io_fetch_service input.cmd service there
  | fetched q sqhead cmd tag => exact start_io_service service there
  | waiting q sqhead cmd tag => exact get_ioreq_service service there
  | holding q sqhead cmd k => exact ⟨_, rfl, submit_service service there⟩
  | failed q sqhead status k =>
    exact complete_service service there rfl rfl rfl rfl
      (fun _ served => ⟨served.queue, served.sqhead⟩) trivial
  | releasing q sqhead k =>
    have same := @release_serves s k
    exact ⟨_, rfl, service_goes service there
      (ledger_put_back there service.accounts rfl rfl rfl rfl rfl) rfl (fun p _ => same p)
      (fun p _ => (same p).toFeeds) (same 0).toFeeds
      (fun served => ⟨served.queue, served.sqhead⟩) trivial rfl rfl⟩
  | posting q sqhead =>
    exact ⟨_, rfl, service_goes service there
      (ledger_post there service.accounts rfl rfl rfl rfl) rfl (fun p _ => stays p)
      (fun p _ => (stays p).toFeeds) (stays 0).toFeeds
      (fun served => ⟨served.queue, served.sqhead⟩) trivial rfl rfl⟩
  | leaving q sqhead =>
    exact ⟨_, rfl, moves _ (storeHead q sqhead s.sc)
      (store_head_serves (served.sqhead q sqhead rfl rfl)) rfl rfl rfl
      (fun served => ⟨served.queue, nofun⟩) trivial⟩
  | clearing q =>
    exact ⟨_, rfl, moves _ (notifyAdmin q (setBusy q false s.sc))
      (fun p => notify_admin_serves q (set_busy_serves q false s.sc p)) rfl rfl rfl
      (fun _ => idles _) trivial⟩

theorem callback_service {err accepts : Bool} (service : Service cfg s) :
    ∃ s', callback k err accepts s = .ok s' ∧ Service cfg s' := by
  unfold callback
  split
  · next member =>
    dsimp only
    split
    · refine ⟨_, rfl, service.accounts, service.admin, service.threads,
        fun t inside => ranges_filled _ (service.filled t inside), fun j inside => ?_⟩
      rw [ranges_queue]
      exact service.inflight j inside
    · obtain ⟨t, done, serves⟩ := @complete_goes s (s.reqs k).q (s.reqs k).cid
        (statusGenc (if err then scDataTransferError
          else if (s.reqs k).ranges ≠ 0 then scInternalDeviceError else scSuccess))
        (s.reqs k).tag (service.inflight k member)
      rw [done]
      obtain ⟨same, threads⟩ := complete_same done
      refine ⟨_, rfl, ?_, ?_, ?_, ?_, ?_⟩
      · unfold Accounts
        rw [same.inflight, same.finished, same.free, same.pending, same.sem, same.posts, threads]
        exact ledger_end member service.accounts
      · exact (serves 0).cqid.trans service.admin
      · rw [threads]
        exact fun t' inside => served_kept (fun q _ => serves q) (service.threads t' inside)
      · rw [threads, same.reqs]
        exact service.filled
      · rw [same.inflight, same.reqs]
        exact fun j inside => feeds_completes (serves _).toFeeds
          (service.inflight j (mem_of_mem_erase inside))
  · exact ⟨s, rfl, service⟩

theorem set_tail_feeds (sc : Softc) (idx tail q : Nat) :
    Feeds sc (sc.setSq idx { sc.submitQueues idx with tail := tail }) q ∧
      ((sc.setSq idx { sc.submitQueues idx with tail := tail }).submitQueues q).size =
        (sc.submitQueues q).size := by
  by_cases named : q = idx
  · subst named
    refine ⟨⟨rfl, ?_, fun ready => ready⟩, ?_⟩ <;> simp [Softc.setSq]
  · refine ⟨⟨rfl, ?_, fun ready => ready⟩, ?_⟩ <;> simp [Softc.setSq, named]

theorem set_tail_served {idx tail : Nat} {t : Thread} (served : t.Served sc)
    (inside : t.queue = some idx → tail < (sc.submitQueues idx).size) :
    t.Served (sc.setSq idx { sc.submitQueues idx with tail := tail }) := by
  refine ⟨fun q works => ?_, fun q sqhead works reads => ?_⟩
  · obtain ⟨ready, completes⟩ := served.queue q works
    refine ⟨?_, feeds_completes (set_tail_feeds sc idx tail q).1 completes⟩
    by_cases named : q = idx
    · subst named
      simp only [Softc.setSq, update_self]
      exact ⟨ready.inside, ready.qbase, ready.head, inside works⟩
    · simp only [Softc.setSq, update_of_ne named]
      exact ready
  · rw [(set_tail_feeds sc idx tail q).2]
    exact served.sqhead q sqhead works reads

theorem doorbell_service {idx : Nat} {isSq : Bool} {value : BitVec 16}
    (there : s.threads[v]? = some .idle) (service : Service cfg s)
    (disciplined : Disciplined s (.doorbell v idx isSq value)) :
    Service cfg (doorbell v idx isSq value s) := by
  have accounts := @doorbell_accounts cfg s v idx isSq value there service.accounts
  revert accounts
  unfold doorbell
  split
  · exact fun _ => service
  next legal =>
  split
  · next sq =>
    have kept : idx = 0 ∨ idx ≤ s.sc.numSqueues ∨ WorksOn s idx →
        SqReady s.sc.maxQueues idx { s.sc.submitQueues idx with tail := value.toNat } ∧
          Completes s.sc idx := disciplined there sq (by omega)
    have served : ∀ t ∈ s.threads, t.Served (s.sc.setSq idx
        { s.sc.submitQueues idx with tail := value.toNat }) := fun t member =>
      set_tail_served (service.threads t member) fun works =>
        (kept (.inr (.inr ⟨t, member, works⟩))).1.tail
    have admin : ((s.sc.setSq idx { s.sc.submitQueues idx with
        tail := value.toNat }).submitQueues 0).cqid = 0 := by
      by_cases named : 0 = idx
      · subst named
        simpa [Softc.setSq] using service.admin
      · simpa [Softc.setSq, named] using service.admin
    have inflight : ∀ k ∈ s.inflight, Completes (s.sc.setSq idx
        { s.sc.submitQueues idx with tail := value.toNat }) (s.reqs k).q := fun k member =>
      feeds_completes (set_tail_feeds s.sc idx _ _).1 (service.inflight k member)
    dsimp only
    split
    · next rings =>
      intro accounts
      refine ⟨accounts, admin, fun t member => ?_, fun t member => ?_, inflight⟩
      · rcases mem_set member with rfl | old
        · obtain ⟨ready, completes⟩ := kept (rings.elim .inl fun few => .inr (.inl few))
          refine ⟨fun q works => ?_, nofun⟩
          cases works
          refine ⟨?_, feeds_completes (set_tail_feeds s.sc idx _ idx).1 completes⟩
          simp only [Sys.put, Softc.setSq, update_self]
          exact ready
        · exact served t old
      · rcases mem_set member with rfl | old
        · trivial
        · exact service.filled t old
    · exact fun accounts => ⟨accounts, admin, served, service.filled, inflight⟩
  · split
    · exact fun _ => service
    · intro accounts
      have serves : ∀ q, Serves s.sc (s.sc.setCq idx
          { s.sc.complQueues idx with head := value.toNat }) q :=
        set_cq_serves fun ready => ⟨ready.1, ready.2⟩
      exact ⟨accounts, service.admin, fun t member => served_kept (fun q _ => serves q)
        (service.threads t member), service.filled, fun k member =>
        feeds_completes (serves _).toFeeds (service.inflight k member)⟩

theorem write_reg_cqid (host : Host) (offset : Nat) (value : BitVec 32) (pendingIos : Nat)
    (zero : (sc.submitQueues 0).cqid = 0) :
    ((writeReg host offset value pendingIos sc).submitQueues 0).cqid = 0 := by
  have inserted : ∀ sc : Softc, (insertCc value pendingIos sc).submitQueues = sc.submitQueues := by
    intro sc
    unfold insertCc
    split
    · rfl
    · split <;> rfl
  have shut : (shutdown value sc).submitQueues = sc.submitQueues := by
    unfold shutdown
    split <;> rfl
  unfold writeReg
  split
  · unfold writeCc
    rw [inserted]
    unfold transition
    split
    · rw [shut]
      exact zero
    · split
      · simp only [initController, Softc.setSq, Softc.setCq, update_self, adminSq]
        rw [shut]
        exact zero
      · simp only [resetLocked, resetSq, shut]
        simpa using zero
  iterate 4
    split
    · exact zero
  split <;> exact zero

theorem write_reg_queues (host : Host) {offset : Nat} {value : BitVec 32} (pendingIos : Nat)
    (keeps : toggles sc offset value = false) (q : Nat) :
    Serves sc (writeReg host offset value pendingIos sc) q := by
  have inserted : ∀ sc' : Softc, Serves sc sc' q → Serves sc (insertCc value pendingIos sc') q := by
    intro sc' serves
    unfold insertCc
    split
    · exact ⟨⟨serves.max, serves.cqid, serves.cq⟩, serves.size, serves.sq⟩
    · split <;> exact ⟨⟨serves.max, serves.cqid, serves.cq⟩, serves.size, serves.sq⟩
  unfold writeReg
  split
  · next cc =>
    have still : value.getLsbD 0 = sc.en := by simpa [toggles, cc] using keeps
    have shut : (shutdown value sc).en = sc.en ∧ Serves sc (shutdown value sc) q := by
      unfold shutdown
      split
      · exact ⟨rfl, serves_same rfl rfl fun ready => ready⟩
      · exact ⟨rfl, serves_self sc q⟩
    unfold writeCc transition
    rw [if_pos (still.trans shut.1.symm)]
    exact inserted _ shut.2
  iterate 4
    split
    · exact serves_same rfl rfl fun ready => ready
  split <;> exact serves_same rfl rfl fun ready => ready

theorem reg_service {offset : Nat} {value : BitVec 32} (service : Service cfg s)
    (quiet : Disciplined s (.reg offset value)) :
    ∃ s', sysStep host cfg s (.reg offset value) = .ok s' ∧ Service cfg s' := by
  have admin := write_reg_cqid host offset value s.pendingIos service.admin
  refine ⟨_, rfl, ?_⟩
  by_cases turns : toggles s.sc offset value = true
  · obtain ⟨idle, none_inflight⟩ := quiet turns
    refine ⟨service.accounts, admin, fun t member => ?_, service.filled, fun k member => ?_⟩
    · rw [idle t member]
      exact ⟨nofun, nofun⟩
    · have nobody : k ∈ s.inflight := member
      rw [none_inflight] at nobody
      cases nobody
  · have serves := write_reg_queues host s.pendingIos (Bool.eq_false_iff.mpr turns)
    exact ⟨service.accounts, admin, fun t member => served_kept (fun q _ => serves q)
      (service.threads t member), service.filled, fun k member =>
      feeds_completes (serves _).toFeeds (service.inflight k member)⟩

theorem service_kept (service : Service cfg s) (sc : ∀ q, Serves s.sc s'.sc q)
    (accounts : Accounts cfg s') (threads : s'.threads = s.threads) (reqs : s'.reqs = s.reqs)
    (inflight : s'.inflight = s.inflight) : Service cfg s' := by
  refine ⟨accounts, (sc 0).cqid.trans service.admin, ?_, ?_, ?_⟩
  · rw [threads]
    exact fun t member => served_kept (fun q _ => sc q) (service.threads t member)
  · rw [threads, reqs]
    exact service.filled
  · rw [inflight, reqs]
    exact fun k member => feeds_completes (sc _).toFeeds (service.inflight k member)

theorem sys_step_service (s : Sys) (e : Event) (service : Service cfg s)
    (disciplined : Disciplined s e) : ∃ s', sysStep host cfg s e = .ok s' ∧ Service cfg s' := by
  cases e with
  | doorbell v idx isSq value =>
    simp only [sysStep]
    split
    · next there => exact ⟨_, rfl, doorbell_service there service disciplined⟩
    · exact ⟨s, rfl, service⟩
  | reg offset value => exact reg_service service disciplined
  | step v input =>
    simp only [sysStep]
    split
    · next thread there =>
      refine thread_step_service there service fun sqhead same => ?_
      subst same
      simpa only [Disciplined, there, TakesCommand] using disciplined
    · exact ⟨s, rfl, service⟩
  | callback k err accepts => exact callback_service service
  | release k =>
    have accounts : ∀ s', sysStep host cfg s (.release k) = .ok s' → Accounts cfg s' :=
      fun s' => sys_step_accounts s (.release k) s' service.accounts
    revert accounts
    simp only [sysStep]
    split
    · intro accounts
      refine ⟨_, rfl, service_kept service (fun q => ?_) (accounts _ rfl) rfl rfl rfl⟩
      exact release_serves k q
    · exact fun _ => ⟨s, rfl, service⟩
  | post =>
    have accounts : ∀ s', sysStep host cfg s .post = .ok s' → Accounts cfg s' :=
      fun s' => sys_step_accounts s .post s' service.accounts
    revert accounts
    simp only [sysStep]
    split
    · exact fun _ => ⟨s, rfl, service⟩
    · exact fun accounts =>
        ⟨_, rfl, service_kept service (serves_self s.sc) (accounts _ rfl) rfl rfl rfl⟩

end

section
variable {host : Host} {cfg : Config} {s s' : Sys} {v : Nat} {input : Input}

def SubmissionQueue.ahead (sq : SubmissionQueue) (sqhead : Nat) : Nat :=
  distance sq.size sqhead sq.tail

def Thread.left (sc : Softc) : Thread → Nat
  | .idle => 0
  | .rung q => 8 * (sc.submitQueues q).size + 2
  | .loaded _ => 8 * (sc.submitQueues 0).size + 1
  | .claimed q => 8 * (sc.submitQueues q).size + 1
  | .loop q sqhead => 8 * (sc.submitQueues q).ahead sqhead + 3
  | .fetched q sqhead _ _ => 8 * (sc.submitQueues q).ahead sqhead + 9
  | .waiting q sqhead _ _ => 8 * (sc.submitQueues q).ahead sqhead + 8
  | .holding q sqhead _ _ => 8 * (sc.submitQueues q).ahead sqhead + 7
  | .failed q sqhead _ _ => 8 * (sc.submitQueues q).ahead sqhead + 6
  | .releasing q sqhead _ => 8 * (sc.submitQueues q).ahead sqhead + 5
  | .posting q sqhead => 8 * (sc.submitQueues q).ahead sqhead + 4
  | .leaving _ _ => 2
  | .clearing _ => 1

structure Thread.Inside (sc : Softc) (t : Thread) : Prop where
  queue : ∀ q, t.queue = some q → (sc.submitQueues q).head < (sc.submitQueues q).size ∧
    (sc.submitQueues q).tail < (sc.submitQueues q).size
  sqhead : ∀ q sqhead, t.queue = some q → t.sqhead = some sqhead →
    sqhead < (sc.submitQueues q).size

variable {sc sc' : Softc} {thread : Thread} {q sqhead : Nat} {cid status : BitVec 16} {tag : Tag}

theorem served_inside {t : Thread} (served : t.Served sc) : t.Inside sc :=
  ⟨fun q works => ⟨(served.queue q works).1.head, (served.queue q works).1.tail⟩, served.sqhead⟩

structure Nearer (s s' : Sys) (v : Nat) (thread : Thread) : Prop where
  goes : ∃ new, s'.threads[v]? = some new ∧ new.Inside s'.sc ∧
    new.left s'.sc + 1 ≤ thread.left s.sc

theorem idle_inside (sc : Softc) : Thread.Inside sc .idle :=
  ⟨nofun, nofun⟩

theorem nearer_of {new : Thread} (there : s.threads[v]? = some thread)
    (threads : s'.threads = s.threads.set v new) (inside : new.Inside s'.sc)
    (less : new.left s'.sc + 1 ≤ thread.left s.sc) : Nearer s s' v thread := by
  obtain ⟨short, -⟩ := List.getElem?_eq_some_iff.mp there
  refine ⟨new, ?_, inside, less⟩
  rw [threads]
  exact getElem?_set_self short

theorem set_completion_queues {sqid : Nat} (ran : setCompletion q sqid cid status sc = .ok sc') :
    sc'.submitQueues = sc.submitQueues := by
  have put := set_completion_puts ran
  rw [put]
  unfold notifyIo
  split <;> rfl

theorem complete_queues (ran : complete q cid status tag s = .ok s') :
    s'.sc.submitQueues = s.sc.submitQueues := by
  obtain ⟨sc, put, rfl⟩ := complete_puts ran
  exact set_completion_queues put

theorem left_same (same : sc'.submitQueues = sc.submitQueues) (t : Thread) :
    t.left sc' = t.left sc := by
  cases t <;> simp only [Thread.left, same]

theorem inside_same (same : sc'.submitQueues = sc.submitQueues) {t : Thread} (inside : t.Inside sc) :
    t.Inside sc' := by
  refine ⟨?_, ?_⟩
  · rw [same]
    exact inside.queue
  · rw [same]
    exact inside.sqhead

theorem complete_nearer {new : Thread} (there : s.threads[v]? = some thread)
    (ran : complete q cid status tag (s.put v new) = .ok s') (inside : new.Inside s.sc)
    (less : new.left s.sc + 1 ≤ thread.left s.sc) : Nearer s s' v thread := by
  have same := complete_queues ran
  refine nearer_of there (complete_same ran).2 (inside_same same inside) ?_
  rw [left_same same]
  exact less

theorem admin_cmd_queue (cmd : Command) (sc : Softc) :
    (adminCmd host cmd sc).sc.submitQueues 0 = sc.submitQueues 0 := by
  have other : ∀ q new, q ≠ 0 → (sc.setSq q new).submitQueues 0 = sc.submitQueues 0 :=
    fun q new apart => update_of_ne (Ne.symm apart) ..
  refine admin_cmd_cases (p := fun result => result.sc.submitQueues 0 = sc.submitQueues 0)
    ?_ ?_ ?_ ?_ ?_ ?_ ?_
  · exact fun _ _ => rfl
  · exact fun _ => rfl
  · exact fun _ some_ _ => other _ _ some_
  · exact fun _ some_ _ _ => other _ _ some_
  · exact fun _ _ _ _ => rfl
  · exact fun _ _ _ _ => rfl
  · exact fun _ _ => rfl

theorem fetch_next {next : Nat} (ran : fetch q sqhead sc = .ok next) :
    next = (sqhead + 1) % (sc.submitQueues q).size := by
  unfold fetch at ran
  obtain ⟨-, ran⟩ | ⟨-, ran⟩ := ite_split ran
  · cases ran
  obtain ⟨-, ran⟩ | ⟨-, ran⟩ := ite_split ran
  · cases ran
  obtain ⟨-, ran⟩ | ⟨-, ran⟩ := ite_split ran
  · cases ran
  obtain ⟨-, ran⟩ | ⟨-, ran⟩ := ite_split ran
  · cases ran
  · cases ran
    rfl

theorem admin_turn_next {cmd : Command} (ran : adminTurn host v sqhead cmd s = .ok s') :
    s'.threads = s.threads.set v (.loop 0 ((sqhead + 1) % (s.sc.submitQueues 0).size)) ∧
      s'.sc.submitQueues 0 = s.sc.submitQueues 0 := by
  obtain ⟨next, sc, notes, fetched, completed, -, rfl⟩ := admin_turn_outcome ran
  refine ⟨fetch_next fetched ▸ rfl, Eq.trans ?_ (@admin_cmd_queue host cmd s.sc)⟩
  unfold adminCompletion at completed
  split at completed
  · cases completed
    rfl
  · obtain ⟨-, completed⟩ | ⟨-, completed⟩ := ite_split completed
    · cases completed
    obtain ⟨-, completed⟩ | ⟨-, completed⟩ := ite_split completed
    · cases completed
    · cases completed
      rfl

theorem start_io_nearer {cmd : Command} (there : s.threads[v]? = some (.fetched q sqhead cmd tag))
    (inside : Thread.Inside s.sc (.fetched q sqhead cmd tag))
    (ran : startIo cfg v q sqhead cmd tag input s = .ok s')
    (goes : (completesAtOnce cmd || cfg.ram || decide (s.sem ≠ 0)) = true) :
    Nearer s s' v (.fetched q sqhead cmd tag) := by
  have completes : ∀ status, complete q cmd.cid status tag (s.put v (.loop q sqhead)) = .ok s' →
      Nearer s s' v (.fetched q sqhead cmd tag) := fun status done =>
    complete_nearer there done ⟨inside.queue, inside.sqhead⟩
      (show 8 * (s.sc.submitQueues q).ahead sqhead + 3 + 1 ≤ _ from by simp only [Thread.left]; omega)
  obtain ⟨-, ran⟩ | ⟨apart, ran⟩ := ite_split ran
  · exact completes _ ran
  obtain ⟨-, ran⟩ | ⟨store, ran⟩ := ite_split ran
  · exact completes _ ran
  obtain ⟨zero, ran⟩ | ⟨-, ran⟩ := ite_split ran
  · simp [apart, store, zero] at goes
  · cases ran
    exact nearer_of there rfl ⟨inside.queue, inside.sqhead⟩ (Nat.le_refl _)

theorem thread_step_nearer (there : s.threads[v]? = some thread) (inside : thread.Inside s.sc)
    (ran : threadStep host cfg v input s thread = .ok s')
    (goes : goesOn cfg s (.step v input) = true) : Nearer s s' v thread := by
  have moves : ∀ (new : Thread) (sc : Softc), s' = { s with sc := sc }.put v new →
      new.Inside sc → new.left sc + 1 ≤ thread.left s.sc → Nearer s s' v thread := by
    rintro new sc rfl inside less
    exact nearer_of there rfl inside less
  cases thread with
  | idle => simp [goesOn, there] at goes
  | rung q =>
    obtain ⟨zero, ran⟩ | ⟨-, ran⟩ := ite_split ran
    · cases ran
      subst zero
      refine moves _ s.sc rfl ⟨inside.queue, fun p sqhead works reads => ?_⟩ (Nat.le_refl _)
      cases works
      cases reads
      exact (inside.queue 0 rfl).1
    obtain ⟨-, ran⟩ | ⟨-, ran⟩ := ite_split ran
    · cases ran
      exact moves _ s.sc rfl (idle_inside _) (by simp only [Thread.left]; omega)
    · cases ran
      refine moves _ (setBusy q true s.sc) rfl
        ⟨fun p works => ?_, (by intros; contradiction)⟩ ?_
      · cases works
        simpa [setBusy, Softc.setSq] using inside.queue q rfl
      · simp [Thread.left, setBusy, Softc.setSq]
  | loaded sqhead =>
    obtain ⟨-, ran⟩ | ⟨-, ran⟩ := ite_split ran
    · cases ran
      exact moves _ s.sc rfl (idle_inside _) (by simp only [Thread.left]; omega)
    · cases ran
      have head := inside.sqhead 0 sqhead rfl rfl
      refine moves _ (setBusy 0 true s.sc) rfl ⟨fun p works => ?_, fun p h works reads => ?_⟩ ?_
      · cases works
        simpa [setBusy, Softc.setSq] using inside.queue 0 rfl
      · cases works
        cases reads
        simpa [setBusy, Softc.setSq] using head
      · have less : (s.sc.submitQueues 0).ahead sqhead < (s.sc.submitQueues 0).size :=
          Nat.mod_lt _ (by omega)
        simp only [Thread.left, setBusy, Softc.setSq, update_self]
        unfold SubmissionQueue.ahead at less ⊢
        dsimp only
        omega
  | claimed q =>
    cases ran
    have head := (inside.queue q rfl).1
    refine moves _ s.sc rfl ⟨inside.queue, fun p sqhead works reads => ?_⟩ ?_
    · cases works
      cases reads
      exact head
    · have less : (s.sc.submitQueues q).ahead (s.sc.submitQueues q).head <
          (s.sc.submitQueues q).size := Nat.mod_lt _ (by omega)
      simp only [Thread.left]
      omega
  | loop q sqhead =>
    have here := inside.sqhead q sqhead rfl rfl
    have tail := (inside.queue q rfl).2
    obtain ⟨-, ran⟩ | ⟨more, ran⟩ := ite_split ran
    · cases ran
      exact moves _ s.sc rfl ⟨inside.queue, inside.sqhead⟩ (by simp only [Thread.left]; omega)
    have fewer : (s.sc.submitQueues q).ahead ((sqhead + 1) % (s.sc.submitQueues q).size) + 1 =
        (s.sc.submitQueues q).ahead sqhead := distance_next here tail more
    have next : (sqhead + 1) % (s.sc.submitQueues q).size < (s.sc.submitQueues q).size :=
      Nat.mod_lt _ (by omega)
    obtain ⟨zero, ran⟩ | ⟨-, ran⟩ := ite_split ran
    · subst zero
      obtain ⟨threads, queue⟩ := admin_turn_next ran
      refine nearer_of there threads ⟨fun p works => ?_, fun p h works reads => ?_⟩ ?_
      · cases works
        rw [queue]
        exact inside.queue 0 rfl
      · cases works
        cases reads
        rw [queue]
        exact next
      · simp only [Thread.left, queue]
        omega
    · obtain ⟨head, fetched, rfl⟩ := io_fetch_outcome ran
      obtain rfl := fetch_next fetched
      refine nearer_of there rfl ⟨inside.queue, fun p h works reads => ?_⟩ ?_
      · cases works
        cases reads
        exact next
      · simp only [Thread.left, Sys.put, countCommand]
        omega
  | fetched q sqhead cmd tag =>
    refine start_io_nearer there inside ran ?_
    simpa only [goesOn, there] using goes
  | waiting q sqhead cmd tag =>
    simp only [threadStep, getIoreq] at ran
    split at ran
    · cases ran
    · cases ran
      exact nearer_of there rfl ⟨inside.queue, inside.sqhead⟩ (Nat.le_refl _)
  | holding q sqhead cmd k =>
    cases ran
    obtain ⟨ranges, same⟩ | ⟨status, same⟩ := submit_outcome cfg v q sqhead cmd k input s
    · rw [same]
      exact nearer_of there rfl ⟨inside.queue, inside.sqhead⟩
        (show 8 * (s.sc.submitQueues q).ahead sqhead + 3 + 1 ≤ _ from by
          simp only [Thread.left]; omega)
    · rw [same]
      exact nearer_of there rfl ⟨inside.queue, inside.sqhead⟩ (Nat.le_refl _)
  | failed q sqhead status k =>
    exact complete_nearer there ran ⟨inside.queue, inside.sqhead⟩ (Nat.le_refl _)
  | releasing q sqhead k =>
    cases ran
    have same : (releaseIoreq k s).sc.submitQueues = s.sc.submitQueues := by
      unfold releaseIoreq
      dsimp only
      split <;> rfl
    refine nearer_of there rfl (inside_same same ⟨inside.queue, inside.sqhead⟩) ?_
    exact Nat.le_of_eq (congrArg (· + 1) (left_same same (.posting q sqhead)))
  | posting q sqhead =>
    cases ran
    exact nearer_of there rfl ⟨inside.queue, inside.sqhead⟩ (Nat.le_refl _)
  | leaving q sqhead =>
    cases ran
    have here := inside.sqhead q sqhead rfl rfl
    have tail := (inside.queue q rfl).2
    refine moves _ (storeHead q sqhead s.sc) rfl
      ⟨fun p works => ?_, (by intros; contradiction)⟩ (Nat.le_refl _)
    cases works
    simpa [storeHead, Softc.setSq] using ⟨here, tail⟩
  | clearing q =>
    cases ran
    exact moves _ (notifyAdmin q (setBusy q false s.sc)) rfl (idle_inside _) (Nat.le_refl _)

theorem left_positive (sc : Softc) (works : thread ≠ .idle) : 1 ≤ thread.left sc := by
  cases thread with
  | idle => exact absurd rfl works
  | _ => simp only [Thread.left]; omega

theorem waiting_stays (there : s.threads[v]? = some thread)
    (ran : threadStep host cfg v input s thread = .ok s')
    (stays : goesOn cfg s (.step v input) = false) : s' = s := by
  cases thread with
  | idle =>
    cases ran
    rfl
  | fetched q sqhead cmd tag =>
    simp only [goesOn, there, Bool.or_eq_false_iff, decide_eq_false_iff_not, not_not] at stays
    obtain ⟨⟨apart, store⟩, zero⟩ := stays
    simp only [threadStep, startIo, apart, store, zero] at ran
    cases ran
    rfl
  | _ => simp [goesOn, there] at stays

theorem callback_threads {k : Nat} {err accepts : Bool} (ran : callback k err accepts s = .ok s') :
    s'.threads = s.threads ∧ s'.sc.submitQueues = s.sc.submitQueues := by
  obtain rfl | ⟨-, ⟨ranges, rfl⟩ | ⟨-, status, t, completed, rfl⟩⟩ := callback_outcome ran
  · exact ⟨rfl, rfl⟩
  · exact ⟨rfl, rfl⟩
  · have queues := complete_queues completed
    exact ⟨(complete_same completed).2, queues⟩

theorem steps_taken_le (events : List Event) : ∀ (s : Sys) (thread : Thread),
    s.threads[v]? = some thread → thread.Inside s.sc → (∀ e ∈ events, ByItself v e) →
      stepsTaken host cfg s events ≤ thread.left s.sc := by
  induction events with
  | nil => exact fun _ _ _ _ _ => Nat.zero_le _
  | cons e rest ih =>
    intro s thread there inside alone
    have later := fun e' member => alone e' (mem_cons_of_mem e member)
    have here := alone e mem_cons_self
    have others : ∀ s', s'.threads = s.threads → s'.sc.submitQueues = s.sc.submitQueues →
        stepsTaken host cfg s' rest ≤ thread.left s.sc := by
      intro s' threads queues
      rw [← left_same queues]
      exact ih s' thread (threads ▸ there) (inside_same queues inside) later
    unfold stepsTaken
    cases e with
    | doorbell w idx isSq value => exact here.elim
    | reg offset value => exact here.elim
    | step w input =>
      have own : w = v := here
      subst own
      have ran_step : sysStep host cfg s (.step w input) =
          threadStep host cfg w input s thread := by
        simp only [sysStep, there]
      by_cases goes : goesOn cfg s (.step w input) = true
      · rw [if_pos goes]
        cases ran : sysStep host cfg s (.step w input) with
        | error fault =>
          refine left_positive s.sc fun idle => ?_
          subst idle
          simp [goesOn, there] at goes
        | ok s' =>
          obtain ⟨new, now, kept, less⟩ :=
            (thread_step_nearer there inside (ran_step.symm.trans ran) goes).goes
          have rest_taken := ih s' new now kept later
          dsimp only
          omega
      · rw [if_neg goes, Nat.zero_add]
        cases ran : sysStep host cfg s (.step w input) with
        | error fault => exact Nat.zero_le _
        | ok s' =>
          have same := waiting_stays there (ran_step.symm.trans ran) (Bool.eq_false_iff.mpr goes)
          subst same
          exact others s' rfl rfl
    | callback k err accepts =>
      rw [show goesOn cfg s (.callback k err accepts) = false from rfl, if_neg (by decide),
        Nat.zero_add]
      cases ran : sysStep host cfg s (.callback k err accepts) with
      | error fault => exact Nat.zero_le _
      | ok s' =>
        obtain ⟨threads, queues⟩ := callback_threads ran
        exact others s' threads queues
    | release k =>
      rw [show goesOn cfg s (.release k) = false from rfl, if_neg (by decide), Nat.zero_add]
      split
      · next s' ran =>
        obtain ⟨-, ran⟩ | ⟨-, ran⟩ := ite_split ran
        · cases ran
          refine others _ rfl ?_
          unfold releaseIoreq
          dsimp only
          split <;> rfl
        · cases ran
          exact others _ rfl rfl
      · exact Nat.zero_le _
    | post =>
      rw [show goesOn cfg s .post = false from rfl, if_neg (by decide), Nat.zero_add]
      split
      · next s' ran =>
        obtain ⟨-, ran⟩ | ⟨-, ran⟩ := ite_split ran <;> cases ran <;> exact others _ rfl rfl
      · exact Nat.zero_le _

theorem inside_returns (there : s.threads[v]? = some thread) (inside : thread.Inside s.sc) :
    Returns host cfg s v := by
  intro events alone
  refine Nat.le_trans (steps_taken_le events s thread there inside alone) ?_
  have bound : ∀ q, thread.queue = some q →
      sizeOf s v = (s.sc.submitQueues q).size ∧
        ∀ h, (s.sc.submitQueues q).ahead h < (s.sc.submitQueues q).size := by
    intro q works
    refine ⟨by simp [sizeOf, there, works], fun h => Nat.mod_lt _ ?_⟩
    exact Nat.zero_lt_of_lt (inside.queue q works).1
  cases thread with
  | idle => exact Nat.zero_le _
  | leaving q sqhead => exact (by decide : 2 ≤ 8).trans (Nat.le_add_left 8 _)
  | clearing q => exact (by decide : 1 ≤ 8).trans (Nat.le_add_left 8 _)
  | rung q | claimed q =>
    have size := (bound q rfl).1
    simp only [Thread.left]
    omega
  | loaded h =>
    have size := (bound 0 rfl).1
    simp only [Thread.left]
    omega
  | loop q h | posting q h =>
    obtain ⟨size, less⟩ := bound q rfl
    have here := less h
    simp only [Thread.left]
    omega
  | releasing q h k =>
    obtain ⟨size, less⟩ := bound q rfl
    have here := less h
    simp only [Thread.left]
    omega
  | fetched q h cmd x | waiting q h cmd x | holding q h cmd x | failed q h cmd x =>
    obtain ⟨size, less⟩ := bound q rfl
    have here := less h
    simp only [Thread.left]
    omega

end

section
variable {host : Host} {cfg : Config}

theorem init_service (cfg : Config) (maxQueues vcpus : Nat) :
    Service cfg (sysInit cfg maxQueues vcpus) where
  accounts := init_accounts cfg maxQueues vcpus
  admin := by simp [sysInit, softcInit, resetLocked, resetSq]
  threads := by
    intro t member
    rw [eq_of_mem_replicate member]
    exact ⟨(by intros; contradiction), (by intros; contradiction)⟩
  filled := by
    intro t member
    rw [eq_of_mem_replicate member]
    trivial
  inflight := (by intros; contradiction)

theorem service_returns {s : Sys} (service : Service cfg s) :
    ∀ v, v < s.threads.length → Returns host cfg s v := by
  intro v short
  have there := List.getElem?_eq_getElem short
  exact inside_returns there (served_inside (service.threads _ (getElem_mem short)))

instance (cq : CompletionQueue) : Decidable (CqReady cq) := inferInstanceAs (Decidable (_ ∧ _))

instance (sc : Softc) (q : Nat) : Decidable (Completes sc q) := inferInstanceAs (Decidable (_ ∧ _))

instance (maxQueues q : Nat) (sq : SubmissionQueue) : Decidable (SqReady maxQueues q sq) :=
  decidable_of_iff (_ ∧ _ ∧ _ ∧ _)
    ⟨fun ⟨a, b, c, d⟩ => ⟨a, b, c, d⟩, fun ⟨a, b, c, d⟩ => ⟨a, b, c, d⟩⟩

instance (s : Sys) (q : Nat) : Decidable (WorksOn s q) :=
  inferInstanceAs (Decidable (∃ t ∈ s.threads, t.queue = some q))

instance (s : Sys) (q : Nat) : Decidable (Awaited s q) :=
  inferInstanceAs (Decidable (∃ k ∈ s.inflight, (s.reqs k).q = q))

instance (s : Sys) (cmd : Command) : Decidable (LeavesQueues s cmd) :=
  inferInstanceAs (Decidable (_ → (_ → _) ∧ (_ → _ ∧ _) ∧ (_ → _ ∧ _)))

instance (s : Sys) (cmd : Command) (thread : Option Thread) :
    Decidable (TakesCommand s cmd thread) := by
  unfold TakesCommand
  split <;> infer_instance

instance : ∀ s e, Decidable (Disciplined s e)
  | s, .doorbell _ idx _ _ =>
      inferInstanceAs (Decidable (_ → _ → _ → _ ∨ _ ∨ WorksOn s idx → _ ∧ Completes s.sc idx))
  | s, .reg _ _ =>
      inferInstanceAs (Decidable (_ → (∀ t ∈ s.threads, _) ∧ _))
  | s, .step v input => inferInstanceAs (Decidable (TakesCommand s input.cmd s.threads[v]?))
  | _, .callback _ _ _ => .isTrue trivial
  | _, .release _ => .isTrue trivial
  | _, .post => .isTrue trivial

end
end Nvme
