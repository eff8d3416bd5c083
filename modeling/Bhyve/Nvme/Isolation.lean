import Bhyve.Nvme.Accounts

namespace Nvme
open StepRuns Tables Fallible
open List hiding mem_set

/-- The requests that are not on the free list are those that are counted, and the semaphore has the
    length of the list but for the threads that are between the two. -/
structure Accounted (cfg : Config) (s : Sys) : Prop where
  listed : s.free.Nodup ∧ ∀ k ∈ s.free, k < cfg.ioslots
  counted : ((List.range cfg.ioslots).filter fun k => decide (k ∉ s.free)).length = s.pendingIos
  sem : s.free.length =
    s.sem + s.threads.countP Thread.isWaiting + s.threads.countP Thread.isPosting + s.posts

def CompletedInEpoch : Note → Prop
  | .completed _ _ _ tag epoch _ => tag.epoch = epoch
  | .executed _ _ _ _ => True

structure Isolated (cfg : Config) (s : Sys) : Prop where
  completions : ∀ note ∈ s.notes, CompletedInEpoch note
  ready : s.sc.rdy = true → s.sc.en = true ∧
    ∀ k, k < cfg.ioslots → k ∉ s.free → (s.reqs k).tag.epoch = s.epoch
  accounted : Accounted cfg s

def ResetsAtRest (s : Sys) : Event → Prop
  | .reg offset value =>
      resets s.sc offset value = true → (∀ t ∈ s.threads, t = .idle) ∧ s.pendingIos = 0
  | _ => True

def LeadsTo (host : Host) (cfg : Config) (good : Sys → Prop) (s : Sys) (e : Event) : Prop :=
  ∀ s', sysStep host cfg s e = .ok s' → good s'

section
variable {cfg : Config} {s : Sys}

theorem slots_nodup (accounts : Accounts cfg s) :
    (s.threads.flatMap Thread.held ++ (s.inflight ++ (s.finished ++ s.free))).Nodup :=
  accounts.slots.nodup_iff.mpr nodup_range

theorem free_in_range (accounts : Accounts cfg s) {k : Nat} (listed : k ∈ s.free) :
    k < cfg.ioslots := by
  apply List.mem_range.mp
  rw [← accounts.slots.mem_iff]
  simp [listed]

theorem accounts_accounted (accounts : Accounts cfg s) : Accounted cfg s where
  listed := by
    refine ⟨?_, fun k listed => free_in_range accounts listed⟩
    have all := slots_nodup accounts
    exact (List.nodup_append.mp (List.nodup_append.mp (List.nodup_append.mp all).2.1).2.1).2.1
  counted := by
    have all := slots_nodup accounts
    rw [← List.append_assoc, ← List.append_assoc] at all
    obtain ⟨-, -, apart⟩ := List.nodup_append.mp all
    have slots := accounts.slots
    rw [← List.append_assoc, ← List.append_assoc] at slots
    rw [← (slots.filter _).length_eq, filter_append, List.filter_eq_self.mpr,
      List.filter_eq_nil_iff.mpr, accounts.pending]
    · simp only [append_nil, length_append]
    · intro k listed
      simpa using listed
    · intro k out
      simpa using fun listed => apart k out k listed rfl
  sem := accounts.sem

theorem none_pending (accounts : Accounts cfg s) (rest : s.pendingIos = 0) {k : Nat}
    (slot : k < cfg.ioslots) : k ∈ s.free := by
  have counted := (accounts_accounted accounts).counted
  rw [rest, length_eq_zero_iff, filter_eq_nil_iff] at counted
  simpa using counted k (List.mem_range.mpr slot)

end

section
variable {host : Host}

def SameStatus (sc sc' : Softc) : Prop := sc'.cc = sc.cc ∧ sc'.csts = sc.csts

variable {sc : Softc}

theorem same_ready {sc' : Softc} (same : SameStatus sc sc') (ready : sc.rdy = true → sc.en = true) :
    sc'.rdy = true → sc'.en = true := by
  unfold Softc.rdy Softc.en at *
  rw [same.1, same.2]
  exact ready

theorem admin_cmd_cases {p : AdminResult → Prop} {cmd : Command}
    (same : ∀ x, cmd.opc ≠ opcAsyncEventRequest → p ⟨sc, some x⟩)
    (waits : cmd.opc = opcAsyncEventRequest → p ⟨sc, none⟩)
    (deleteSq : cmd.opc = opcDeleteIoSq → low16 cmd.cdw10 ≠ 0 → ∀ x, p ⟨sc.setSq (low16 cmd.cdw10) { sc.submitQueues (low16 cmd.cdw10) with qbase := none }, some x⟩)
    (createSq : cmd.opc = opcCreateIoSq → low16 cmd.cdw10 ≠ 0 → ∀ new x, p ⟨sc.setSq (low16 cmd.cdw10) new, some x⟩)
    (setCq : cmd.opc = opcDeleteIoCq ∨ cmd.opc = opcCreateIoCq → low16 cmd.cdw10 ≠ 0 → ∀ new x, p ⟨sc.setCq (low16 cmd.cdw10) new, some x⟩)
    (numbers : cmd.opc ≠ opcAsyncEventRequest → ∀ sqs cqs x, p ⟨{ sc with numSqueues := sqs, numCqueues := cqs }, some x⟩)
    (coalesced : cmd.opc ≠ opcAsyncEventRequest → ∀ x, p ⟨coalesce cmd sc, some x⟩) :
    p (adminCmd host cmd sc) := by
  have branch : ∀ {c : Prop} [Decidable c] {yes no : AdminResult}, (c → p yes) → (¬ c → p no) →
      p (if c then yes else no) := fun here there => iteInduction here there
  have differs : ∀ {op}, op ≠ opcAsyncEventRequest → cmd.opc = op →
      cmd.opc ≠ opcAsyncEventRequest := fun apart is => is ▸ apart
  refine branch (fun is => ?_) fun _ => ?_
  · have other := differs (by decide) is
    refine branch (fun _ => same _ other) fun legal => ?_
    exact deleteSq is (fun zero => legal (.inl zero)) _
  refine branch (fun is => ?_) fun _ => ?_
  · have other := differs (by decide) is
    refine branch (fun _ => ?_) fun _ => same _ other
    refine branch (fun _ => same _ other) fun legal => ?_
    exact createSq is (fun zero => legal (.inl zero)) _ _
  refine branch (fun is => ?_) fun _ => ?_
  · have other := differs (by decide) is
    refine branch (fun _ => same _ other) fun legal => ?_
    exact setCq (.inl is) (fun zero => legal (.inl zero)) _ _
  refine branch (fun is => ?_) fun _ => ?_
  · have other := differs (by decide) is
    refine branch (fun _ => ?_) fun _ => same _ other
    refine branch (fun _ => same _ other) fun legal => ?_
    exact setCq (.inr is) (fun zero => legal (.inl zero)) _ _
  refine branch (fun is => ?_) fun _ => ?_
  · have other := differs (by decide) is
    exact branch (fun _ => same _ other) fun _ => same _ other
  refine branch (fun is => ?_) fun _ => ?_
  · have other := differs (by decide) is
    refine branch (fun _ => same _ other) fun _ => ?_
    exact branch (fun _ => same _ other) fun _ => same _ other
  refine branch (fun is => same _ (differs (by decide) is)) fun _ => ?_
  refine branch (fun is => ?_) fun _ => ?_
  · have other := differs (by decide) is
    refine branch (fun _ => ?_) fun _ => ?_
    · unfold setFeatureQueues
      dsimp only
      split
      · exact same _ other
      · split
        · exact numbers other _ _ _
        · exact numbers other _ _ _
    · refine branch (fun _ => coalesced other _) fun _ => ?_
      exact branch (fun _ => same _ other) fun _ => same _ other
  refine branch (fun is => ?_) fun _ => ?_
  · have other := differs (by decide) is
    refine branch (fun _ => ?_) fun _ => ?_
    · refine branch (fun _ => same _ other) fun _ => ?_
      exact branch (fun _ => same _ other) fun _ => same _ other
    · refine branch (fun _ => same _ other) fun _ => ?_
      exact branch (fun _ => same _ other) fun _ => same _ other
  exact branch waits fun other => same _ other

theorem admin_cmd_status (cmd : Command) (sc : Softc) :
    SameStatus sc (adminCmd host cmd sc).sc := by
  refine admin_cmd_cases (p := fun result => SameStatus sc result.sc) ?_ ?_ ?_ ?_ ?_ ?_ ?_
  · exact fun _ _ => ⟨rfl, rfl⟩
  · exact fun _ => ⟨rfl, rfl⟩
  · exact fun _ _ _ => ⟨rfl, rfl⟩
  · exact fun _ _ _ _ => ⟨rfl, rfl⟩
  · exact fun _ _ _ _ => ⟨rfl, rfl⟩
  · exact fun _ _ _ _ => ⟨rfl, rfl⟩
  · exact fun _ _ => ⟨rfl, rfl⟩

theorem admin_completion_status {cmd : Command} {sqhead : Nat} {result : AdminResult}
    (ran : adminCompletion cmd sqhead result = .ok sc) : SameStatus result.sc sc := by
  unfold adminCompletion at ran
  split at ran
  · cases ran
    exact ⟨rfl, rfl⟩
  · obtain ⟨-, ran⟩ | ⟨-, ran⟩ := ite_split ran
    · cases ran
    obtain ⟨-, ran⟩ | ⟨-, ran⟩ := ite_split ran
    · cases ran
    · cases ran
      exact ⟨rfl, rfl⟩

theorem set_completion_status {q sqid : Nat} {cid status : BitVec 16} {sc' : Softc}
    (ran : setCompletion q sqid cid status sc = .ok sc') : SameStatus sc sc' := by
  have put := set_completion_puts ran
  rw [put]
  unfold notifyIo
  split <;> exact ⟨rfl, rfl⟩

theorem write_cc_ready (ccreg : BitVec 32) (pendingIos : Nat) (sc : Softc) :
    (writeCc host ccreg pendingIos sc).rdy = true →
      (writeCc host ccreg pendingIos sc).en = true := by
  unfold writeCc insertCc
  split
  · intro ready
    have off : ∀ x : BitVec 32, (x &&& ~~~cstsRdy).getLsbD 0 = false := by
      intro x
      simp [cstsRdy]
    exact absurd (ready.symm.trans (off _)) (by decide)
  · next enables =>
    have on : ∀ x : BitVec 32,
        ((x &&& ~~~ccWriteMask) ||| (ccreg &&& ccWriteMask)).getLsbD 0 = true := by
      intro x
      have set_ : ccreg.getLsbD 0 = true := by simpa using enables
      have mask : ccWriteMask.getLsbD 0 = true := by decide
      rw [BitVec.getLsbD_or, BitVec.getLsbD_and (x := ccreg), set_, mask]
      simp
    split
    · exact fun _ => on _
    · exact fun _ => on _

theorem write_reg_ready (offset : Nat) (value : BitVec 32) (pendingIos : Nat) {sc : Softc}
    (ready : sc.rdy = true → sc.en = true) : (writeReg host offset value pendingIos sc).rdy = true →
      (writeReg host offset value pendingIos sc).en = true := by
  unfold writeReg
  split
  · exact write_cc_ready value pendingIos sc
  iterate 4
    split
    · exact ready
  split <;> exact ready

end

section
variable {host : Host} {cfg : Config} {s s' : Sys} {v : Nat} {input : Input}

def Thread.Current (epoch : Nat) (tailEpoch : Nat → Nat) : Thread → Prop
  | .rung q => tailEpoch q = epoch
  | .loaded _ => tailEpoch 0 = epoch
  | .claimed q => tailEpoch q = epoch
  | .loop q _ => tailEpoch q = epoch
  | .fetched q _ _ tag => tailEpoch q = epoch ∧ tag.epoch = epoch
  | .waiting q _ _ tag => tailEpoch q = epoch ∧ tag.epoch = epoch
  | .holding q _ _ _ => tailEpoch q = epoch
  | .failed q _ _ _ => tailEpoch q = epoch
  | .releasing q _ _ => tailEpoch q = epoch
  | .posting q _ => tailEpoch q = epoch
  | _ => True

structure Current (cfg : Config) (s : Sys) : Prop where
  accounts : Accounts cfg s
  threads : ∀ t ∈ s.threads, t.Current s.epoch s.tailEpoch
  requests : ∀ k, k < cfg.ioslots → k ∉ s.free → (s.reqs k).tag.epoch = s.epoch
  notes : ∀ note ∈ s.notes, CompletedInEpoch note
  ready : s.sc.rdy = true → s.sc.en = true

theorem current_isolated (current : Current cfg s) : Isolated cfg s where
  completions := current.notes
  ready := fun ready => ⟨current.ready ready, current.requests⟩
  accounted := accounts_accounted current.accounts

structure Works (s s' : Sys) : Prop where
  epoch : s'.epoch = s.epoch
  tails : s'.tailEpoch = s.tailEpoch
  ready : (s.sc.rdy = true → s.sc.en = true) → s'.sc.rdy = true → s'.sc.en = true
  notes : ∀ note ∈ s'.notes, note ∈ s.notes ∨ CompletedInEpoch note

theorem works_current {thread new : Thread} (current : Current cfg s) (works : Works s s')
    (accounts : Accounts cfg s') (threads : s'.threads = s.threads.set v new)
    (there : s.threads[v]? = some thread)
    (next : thread.Current s.epoch s.tailEpoch → new.Current s.epoch s.tailEpoch)
    (requests : ∀ k, k < cfg.ioslots → k ∉ s'.free → (s'.reqs k).tag.epoch = s.epoch) :
    Current cfg s' where
  accounts := accounts
  threads := by
    intro t member
    rw [threads] at member
    rw [works.epoch, works.tails]
    rcases mem_set member with rfl | old
    · exact next (current.threads thread (mem_of_getElem? there))
    · exact current.threads t old
  requests := by
    rw [works.epoch]
    exact requests
  notes := by
    intro note member
    rcases works.notes note member with old | good
    · exact current.notes note old
    · exact good
  ready := works.ready current.ready

theorem same_requests (current : Current cfg s) (free : s'.free = s.free) (reqs : s'.reqs = s.reqs) :
    ∀ k, k < cfg.ioslots → k ∉ s'.free → (s'.reqs k).tag.epoch = s.epoch := by
  intro k slot out
  rw [free] at out
  rw [reqs]
  exact current.requests k slot out

theorem put_works (v : Nat) (new : Thread) (sc : Softc) (status : SameStatus s.sc sc) :
    Works s ({ s with sc := sc }.put v new) where
  epoch := rfl
  tails := rfl
  ready := same_ready status
  notes := fun _ member => .inl member

variable {q sqhead : Nat} {tag : Tag} {cmd : Command}

theorem complete_works {cid status : BitVec 16} (ran : complete q cid status tag s = .ok s')
    (fresh : tag.epoch = s.epoch) : Works s s' := by
  obtain ⟨sc, put, rfl⟩ := complete_puts ran
  refine ⟨rfl, rfl, same_ready (set_completion_status put), fun note member => ?_⟩
  rcases List.mem_cons.mp member with rfl | old
  · exact .inr fresh
  · exact .inl old

theorem admin_turn_works (ran : adminTurn host v sqhead cmd s = .ok s')
    (fresh : s.tailEpoch 0 = s.epoch) : Works s s' := by
  obtain ⟨next, sc, notes, -, completed, noted, rfl⟩ := admin_turn_outcome ran
  obtain ⟨cc, csts⟩ := admin_completion_status completed
  obtain ⟨cc', csts'⟩ := @admin_cmd_status host cmd s.sc
  refine ⟨rfl, rfl, same_ready ⟨cc.trans cc', csts.trans csts'⟩, fun note member => ?_⟩
  rcases List.mem_append.mp member with new | old
  · rcases noted with rfl | ⟨phase, rfl⟩
    · cases new
    · cases List.mem_singleton.mp new
      exact .inr fresh
  · rcases List.mem_cons.mp old with rfl | old
    · exact .inr trivial
    · exact .inl old

theorem io_fetch_works (ran : ioFetch v q sqhead cmd s = .ok s') (current : Current cfg s)
    (there : s.threads[v]? = some (.loop q sqhead)) : Current cfg s' := by
  obtain ⟨next, -, rfl⟩ := io_fetch_outcome ran
  have accounts : Accounts cfg ((countCommand q sqhead cmd s).put v
      (.fetched q next cmd (s.tag q))) :=
    ledger_put there current.accounts rfl rfl rfl
  refine works_current current ⟨rfl, rfl, fun same => same, fun note member => ?_⟩ accounts rfl there
    (fun here => ⟨here, here⟩) (same_requests current rfl rfl)
  rcases List.mem_cons.mp member with rfl | old
  · exact .inr trivial
  · exact .inl old

theorem start_io_current (there : s.threads[v]? = some (.fetched q sqhead cmd tag))
    (current : Current cfg s) (ran : startIo cfg v q sqhead cmd tag input s = .ok s') :
    Current cfg s' := by
  have accounts := start_io_accounts there current.accounts ran
  have here := current.threads _ (mem_of_getElem? there)
  have completes : ∀ status, complete q cmd.cid status tag (s.put v (.loop q sqhead)) = .ok s' →
      Current cfg s' := by
    intro status done
    obtain ⟨same, threads⟩ := complete_same done
    obtain ⟨epoch, tails, ready, notes⟩ := complete_works done here.2
    exact works_current current ⟨epoch, tails, ready, notes⟩ accounts threads there
      (fun now => now.1) (same_requests current same.free same.reqs)
  obtain ⟨-, ran⟩ | ⟨-, ran⟩ := ite_split ran
  · exact completes _ ran
  obtain ⟨-, ran⟩ | ⟨-, ran⟩ := ite_split ran
  · exact completes _ ran
  obtain ⟨-, ran⟩ | ⟨-, ran⟩ := ite_split ran
  · cases ran
    exact current
  · cases ran
    exact works_current current ⟨rfl, rfl, fun same => same, fun _ member => .inl member⟩ accounts
      rfl there (fun now => now) (same_requests current rfl rfl)

theorem get_ioreq_current (there : s.threads[v]? = some (.waiting q sqhead cmd tag))
    (current : Current cfg s) (ran : getIoreq v q sqhead cmd tag s = .ok s') : Current cfg s' := by
  have here := current.threads _ (mem_of_getElem? there)
  obtain ⟨t, took, accounts⟩ := get_ioreq_accounts there current.accounts
  cases took.symm.trans ran
  unfold getIoreq at ran
  cases list : s.free with
  | nil =>
    rw [list] at ran
    cases ran
  | cons k rest =>
    rw [list] at ran
    cases ran
    refine works_current current ⟨rfl, rfl, fun same => same, fun _ member => .inl member⟩ accounts
      rfl there (fun now => now.1) fun j slot out => ?_
    show (Function.update s.reqs k ⟨q, cmd.cid, 0, tag⟩ j).tag.epoch = s.epoch
    by_cases taken : j = k
    · rw [taken, Function.update_self]
      exact here.2
    · rw [Function.update_of_ne taken]
      refine current.requests j slot ?_
      rw [list, mem_cons, not_or]
      exact ⟨taken, out⟩

theorem submit_current {k : Nat} (there : s.threads[v]? = some (.holding q sqhead cmd k))
    (current : Current cfg s) : Current cfg (submit cfg v q sqhead cmd k input s) := by
  have accounts := @submit_accounts cfg s v input q sqhead k cmd there current.accounts
  obtain ⟨ranges, same⟩ | ⟨status, same⟩ := submit_outcome cfg v q sqhead cmd k input s
  · rw [same] at accounts ⊢
    refine works_current current ⟨rfl, rfl, fun same => same, fun _ member => .inl member⟩ accounts
      rfl there (fun now => now) fun j slot out => ?_
    show (Function.update s.reqs k _ j).tag.epoch = s.epoch
    by_cases same : j = k
    · rw [same, Function.update_self]
      exact current.requests k (same ▸ slot) (same ▸ out)
    · rw [Function.update_of_ne same]
      exact current.requests j slot out
  · rw [same] at accounts ⊢
    exact works_current current ⟨rfl, rfl, fun same => same, fun _ member => .inl member⟩ accounts rfl
      there (fun now => now) (same_requests current rfl rfl)

theorem release_ready (k : Nat) (ready : s.sc.rdy = true → s.sc.en = true) :
    (releaseIoreq k s).sc.rdy = true → (releaseIoreq k s).sc.en = true := by
  unfold releaseIoreq
  dsimp only
  split
  · next sets =>
    simp only [Bool.and_eq_true] at sets
    exact fun _ => sets.1.2
  · exact ready

theorem thread_step_current {thread : Thread} (there : s.threads[v]? = some thread)
    (current : Current cfg s) (ran : threadStep host cfg v input s thread = .ok s') :
    Current cfg s' := by
  have accounts := thread_step_accounts there current.accounts ran
  have here := current.threads _ (mem_of_getElem? there)
  have moves : ∀ (new : Thread) (sc : Softc), SameStatus s.sc sc →
      s' = { s with sc := sc }.put v new →
      (thread.Current s.epoch s.tailEpoch → new.Current s.epoch s.tailEpoch) → Current cfg s' := by
    rintro new sc status rfl next
    exact works_current current (put_works v new sc status) accounts rfl there next
      (same_requests current rfl rfl)
  cases thread with
  | idle =>
    cases ran
    exact current
  | rung q =>
    obtain ⟨zero, ran⟩ | ⟨-, ran⟩ := ite_split ran
    · cases ran
      subst zero
      exact moves _ s.sc ⟨rfl, rfl⟩ rfl fun now => now
    obtain ⟨-, ran⟩ | ⟨-, ran⟩ := ite_split ran
    · cases ran
      exact moves _ s.sc ⟨rfl, rfl⟩ rfl fun _ => trivial
    · cases ran
      exact moves _ (setBusy q true s.sc) ⟨rfl, rfl⟩ rfl fun now => now
  | loaded sqhead =>
    obtain ⟨-, ran⟩ | ⟨-, ran⟩ := ite_split ran
    · cases ran
      exact moves _ s.sc ⟨rfl, rfl⟩ rfl fun _ => trivial
    · cases ran
      exact moves _ (setBusy 0 true s.sc) ⟨rfl, rfl⟩ rfl fun now => now
  | claimed q =>
    cases ran
    exact moves _ s.sc ⟨rfl, rfl⟩ rfl fun now => now
  | loop q sqhead =>
    obtain ⟨-, ran⟩ | ⟨-, ran⟩ := ite_split ran
    · cases ran
      exact moves _ s.sc ⟨rfl, rfl⟩ rfl fun _ => trivial
    obtain ⟨zero, ran⟩ | ⟨-, ran⟩ := ite_split ran
    · subst zero
      obtain ⟨same, next, threads⟩ := admin_turn_same ran
      exact works_current current (admin_turn_works ran here) accounts threads there
        (fun now => now) (same_requests current same.free same.reqs)
    · exact io_fetch_works ran current there
  | fetched q sqhead cmd tag => exact start_io_current there current ran
  | waiting q sqhead cmd tag => exact get_ioreq_current there current ran
  | holding q sqhead cmd k =>
    cases ran
    exact submit_current there current
  | failed q sqhead status k =>
    have out : k ∉ s.free ∧ k < cfg.ioslots := by
      have all := slots_nodup current.accounts
      obtain ⟨-, -, apart⟩ := List.nodup_append.mp all
      have held : k ∈ s.threads.flatMap Thread.held :=
        List.mem_flatMap.mpr ⟨_, mem_of_getElem? there, mem_singleton_self k⟩
      refine ⟨fun listed => apart k held k ?_ rfl, List.mem_range.mp ?_⟩
      · simp [listed]
      · rw [← current.accounts.slots.mem_iff]
        exact mem_append_left _ held
    obtain ⟨same, threads⟩ := complete_same ran
    obtain ⟨epoch, tails, ready, notes⟩ :=
      complete_works ran (current.requests k out.2 out.1)
    exact works_current current ⟨epoch, tails, ready, notes⟩ accounts threads there
      (fun now => now) (same_requests current same.free same.reqs)
  | releasing q sqhead k =>
    cases ran
    refine works_current current ⟨rfl, rfl, release_ready k, fun _ member => .inl member⟩ accounts
      rfl there (fun now => now) fun j slot out => ?_
    exact current.requests j slot fun listed => out (mem_append_left _ listed)
  | posting q sqhead =>
    cases ran
    exact works_current current ⟨rfl, rfl, fun same => same, fun _ member => .inl member⟩ accounts
      rfl there (fun now => now) (same_requests current rfl rfl)
  | leaving q sqhead =>
    cases ran
    exact moves _ (storeHead q sqhead s.sc) ⟨rfl, rfl⟩ rfl fun _ => trivial
  | clearing q =>
    cases ran
    refine moves _ (notifyAdmin q (setBusy q false s.sc)) ?_ rfl fun _ => trivial
    unfold notifyAdmin
    split <;> exact ⟨rfl, rfl⟩

theorem callback_current {k : Nat} {err accepts : Bool} (current : Current cfg s)
    (ran : callback k err accepts s = .ok s') : Current cfg s' := by
  have accounts := callback_accounts current.accounts ran
  obtain rfl | ⟨member, outcome⟩ := callback_outcome ran
  · exact current
  have out : k ∉ s.free ∧ k < cfg.ioslots := by
    have all := slots_nodup current.accounts
    obtain ⟨-, -, apart⟩ := List.nodup_append.mp (List.nodup_append.mp all).2.1
    refine ⟨fun listed => apart k member k ?_ rfl, List.mem_range.mp ?_⟩
    · simp [listed]
    · rw [← current.accounts.slots.mem_iff]
      simp [member]
  rcases outcome with ⟨ranges, rfl⟩ | ⟨-, status, t, completed, rfl⟩
  · refine ⟨accounts, current.threads, fun j slot free => ?_, current.notes, current.ready⟩
    show (Function.update s.reqs k _ j).tag.epoch = s.epoch
    by_cases same : j = k
    · rw [same, Function.update_self]
      exact current.requests k out.2 out.1
    · rw [Function.update_of_ne same]
      exact current.requests j slot free
  · obtain ⟨same, threads⟩ := complete_same completed
    obtain ⟨epoch, tails, ready, notes⟩ :=
      complete_works completed (current.requests k out.2 out.1)
    refine ⟨accounts, ?_, ?_, ?_, ready current.ready⟩
    · rw [threads, epoch, tails]
      exact current.threads
    · rw [same.free, same.reqs, epoch]
      exact current.requests
    · intro note inside
      rcases notes note inside with old | good
      · exact current.notes note old
      · exact good

theorem doorbell_current {idx : Nat} {isSq : Bool} {value : BitVec 16}
    (there : s.threads[v]? = some .idle) (current : Current cfg s) :
    Current cfg (doorbell v idx isSq value s) := by
  have accounts := @doorbell_accounts cfg s v idx isSq value there current.accounts
  have rings : ∀ t : Thread, t.Current s.epoch s.tailEpoch →
      t.Current s.epoch (Function.update s.tailEpoch idx s.epoch) := by
    have stays : ∀ q, s.tailEpoch q = s.epoch →
        Function.update s.tailEpoch idx s.epoch q = s.epoch := by
      intro q same
      rw [Function.update_apply]
      split
      · rfl
      · exact same
    intro t here
    cases t with
    | fetched q sqhead cmd tag => exact ⟨stays q here.1, here.2⟩
    | waiting q sqhead cmd tag => exact ⟨stays q here.1, here.2⟩
    | idle => trivial
    | leaving q sqhead => trivial
    | clearing q => trivial
    | _ => exact stays _ here
  revert accounts
  unfold doorbell
  split
  · exact fun _ => current
  · split
    · dsimp only
      split
      · intro accounts
        refine ⟨accounts, fun t member => ?_, current.requests, current.notes, current.ready⟩
        rcases mem_set member with rfl | old
        · exact Function.update_self ..
        · exact rings t (current.threads t old)
      · exact fun accounts => ⟨accounts, fun t member => rings t (current.threads t member),
          current.requests, current.notes, current.ready⟩
    · split
      · exact fun _ => current
      · exact fun accounts => ⟨accounts, current.threads, current.requests, current.notes,
          current.ready⟩

theorem reg_current {offset : Nat} {value : BitVec 32} (current : Current cfg s)
    (rest : ResetsAtRest s (.reg offset value))
    (ran : sysStep host cfg s (.reg offset value) = .ok s') : Current cfg s' := by
  cases ran
  have ready := @write_reg_ready host offset value s.pendingIos s.sc current.ready
  by_cases turns : resets s.sc offset value = true
  · obtain ⟨idle, none_left⟩ := rest turns
    refine ⟨current.accounts, fun t member => ?_, fun k slot out => ?_, current.notes, ready⟩
    · rw [idle t member]
      trivial
    · exact absurd (none_pending current.accounts none_left slot) out
  · refine ⟨current.accounts, ?_, ?_, current.notes, ready⟩
    · simp only [turns]
      exact current.threads
    · simp only [turns]
      exact current.requests

theorem sys_step_current (s : Sys) (e : Event) (s' : Sys) (current : Current cfg s)
    (rest : ResetsAtRest s e) (ran : sysStep host cfg s e = .ok s') : Current cfg s' := by
  have accounts := sys_step_accounts s e s' current.accounts ran
  cases e with
  | doorbell v idx isSq value =>
    obtain ⟨there, ran⟩ | ⟨-, ran⟩ := ite_split ran
    · cases ran
      exact doorbell_current there current
    · cases ran
      exact current
  | reg offset value => exact reg_current current rest ran
  | step v input =>
    simp only [sysStep] at ran
    split at ran
    · next thread there => exact thread_step_current there current ran
    · cases ran
      exact current
  | callback k err accepts => exact callback_current current ran
  | release k =>
    obtain ⟨member, ran⟩ | ⟨-, ran⟩ := ite_split ran
    · cases ran
      refine ⟨accounts, current.threads, fun j slot out => ?_, current.notes,
        release_ready k current.ready⟩
      exact current.requests j slot fun listed => out (mem_append_left _ listed)
    · cases ran
      exact current
  | post =>
    obtain ⟨-, ran⟩ | ⟨-, ran⟩ := ite_split ran <;> cases ran
    · exact current
    · exact ⟨accounts, current.threads, current.requests, current.notes, current.ready⟩

end

section
variable {host : Host} {cfg : Config}

theorem init_current (cfg : Config) (maxQueues vcpus : Nat) :
    Current cfg (sysInit cfg maxQueues vcpus) where
  accounts := init_accounts cfg maxQueues vcpus
  threads := by
    intro t member
    rw [eq_of_mem_replicate member]
    trivial
  requests := fun k slot out => absurd (List.mem_range.mpr slot) out
  notes := nofun
  ready := by
    intro ready
    simp [sysInit, softcInit, resetLocked, Softc.rdy] at ready

theorem requests_accounted (host : Host) (cfg : Config) (maxQueues vcpus : Nat)
    (events : List Event) : AlongAttempts (sysStep host cfg) (LeadsTo host cfg (Accounted cfg))
      (sysInit cfg maxQueues vcpus) events := by
  have always : AlongAttempts (sysStep host cfg) (fun _ _ => True)
      (sysInit cfg maxQueues vcpus) events :=
    along_attempts_always (fun _ _ => trivial) events _
  exact along_attempts_of_invariant (fun s e s' inv _ => sys_step_accounts s e s' inv)
    (fun s e inv _ s' ran => accounts_accounted (sys_step_accounts s e s' inv ran)) events _
    (init_accounts cfg maxQueues vcpus) always

theorem reset_isolation (host : Host) (cfg : Config) (maxQueues vcpus : Nat) (events : List Event)
    (rest : AlongAttempts (sysStep host cfg) ResetsAtRest (sysInit cfg maxQueues vcpus) events) :
    Isolated cfg (sysInit cfg maxQueues vcpus) ∧
      AlongAttempts (sysStep host cfg) (LeadsTo host cfg (Isolated cfg))
        (sysInit cfg maxQueues vcpus) events := by
  have start := init_current cfg maxQueues vcpus
  exact ⟨current_isolated start, along_attempts_of_invariant
    (fun s e s' current rests => sys_step_current s e s' current rests)
    (fun s e current rests s' ran => current_isolated (sys_step_current s e s' current rests ran))
    events _ start rest⟩

instance : ∀ s e, Decidable (ResetsAtRest s e)
  | s, .reg _ _ =>
      inferInstanceAs (Decidable (_ → (∀ t ∈ s.threads, _) ∧ _))
  | _, .doorbell _ _ _ _ => .isTrue trivial
  | _, .step _ _ => .isTrue trivial
  | _, .callback _ _ _ => .isTrue trivial
  | _, .release _ => .isTrue trivial
  | _, .post => .isTrue trivial

def plainHost : Host := ⟨fun address _ => some address.toNat, fun _ _ => blankCompletion⟩

def plainConfig : Config := ⟨2, false, false, false⟩

def Command.input (cmd : Command) : Event := .step 0 ⟨cmd, true, 0⟩

def readSubmitted : List Event :=
  let turn := Command.input ⟨0, 0, 0, 0, 0⟩
  [.reg crAqa 0x00030003, .reg crCc 1, .doorbell 0 0 true 2, turn, turn,
    Command.input ⟨opcCreateIoCq, 1, 0, 0x00030001, 0x00000003⟩,
    Command.input ⟨opcCreateIoSq, 2, 0, 0x00030001, 0x00010001⟩, turn, turn, turn,
    .doorbell 0 1 true 1, turn, turn, Command.input ⟨opcRead, 3, 0, 0, 0⟩, turn, turn, turn, turn,
    turn, turn]

theorem read_and_reset_isolated : Isolated plainConfig (sysInit plainConfig 1 1) ∧
      AlongAttempts (sysStep plainHost plainConfig)
        (LeadsTo plainHost plainConfig (Isolated plainConfig)) (sysInit plainConfig 1 1)
        (readSubmitted ++ [.callback 0 false true, .release 0, .post, .reg crCc 0, .reg crCc 1]) :=
  reset_isolation plainHost plainConfig 1 1 _ (by decide)

def Note.epochs : Note → Option (Nat × Nat)
  | .completed _ _ _ tag epoch _ => some (tag.epoch, epoch)
  | .executed _ _ _ _ => none

theorem note_epochs {s : Sys} {submitted now : Nat} (isolated : Isolated cfg s)
    (last : s.notes.head?.bind Note.epochs = some (submitted, now)) : submitted = now := by
  cases shape : s.notes with
  | nil =>
    rw [shape] at last
    cases last
  | cons note rest =>
    rw [shape] at last
    have good := isolated.completions note (shape ▸ mem_cons_self)
    cases note with
    | executed q slot cmd tag => cases last
    | completed q cqid cid tag epoch phase =>
      cases last
      exact good

theorem stale_read_completed : ¬ (Isolated plainConfig (sysInit plainConfig 1 1) ∧
      AlongAttempts (sysStep plainHost plainConfig)
        (LeadsTo plainHost plainConfig (Isolated plainConfig)) (sysInit plainConfig 1 1)
        ((readSubmitted ++ [.reg crCc 0, .reg crCc 1]) ++ [.callback 0 false true])) := by
  rintro ⟨-, leads⟩
  obtain ⟨s, ran, said⟩ := @value_of_result _ _ _
    (attempts (sysStep plainHost plainConfig) (sysInit plainConfig 1 1)
      (readSubmitted ++ [.reg crCc 0, .reg crCc 1]))
    (fun s => (sysStep plainHost plainConfig s (.callback 0 false true)).toOption.map
      fun s' => s'.notes.head?.bind Note.epochs) (some (some (0, 1))) (by decide)
  obtain ⟨s', ended, epochs⟩ := value_of_result said
  have isolated := along_attempts_last _ _ ran leads s' ended
  exact absurd (note_epochs isolated epochs) (by decide)

end
end Nvme
