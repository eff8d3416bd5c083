import Bhyve.Ahci.Issue

namespace Ahci
open Fallible StepRuns

structure Pool where
  free : List Nat
  busy : List Nat
  queued : List Nat
  size : Nat

def AhciPort.pool (p : AhciPort) : Pool := ⟨p.iofhd, p.iobhd, p.queued, p.ioqsz⟩

/-- Each request is once on one of the two lists, and the block device has those that are busy. -/
structure Pool.Whole (l : Pool) : Prop where
  once : (l.free ++ l.busy).Perm (List.range l.size)
  held : l.queued = l.busy

def Keeps (p p' : AhciPort) : Prop := p.pool.Whole → p'.pool.Whole

variable {env : Env} {disk : Disk} {c : Command} {v v' : PortView} {p p' : AhciPort} {k : Nat}
  {sc sc' : PciAhciSoftc}

theorem keeps_same (same : p'.pool = p.pool) : Keeps p p' := fun whole => same ▸ whole

theorem pool_eq {s : Slots} {t : Setting} (slots : p'.slots = s) (setting : p'.setting = t) :
    p'.pool = ⟨s.iofhd, s.iobhd, s.queued, t.ioqsz⟩ := by
  rw [← slots, ← setting]
  rfl

theorem keeps_taken {rest : List Nat} (free : p.iofhd = k :: rest)
    (taken : p'.pool = ⟨rest, k :: p.iobhd, k :: p.queued, p.ioqsz⟩) : Keeps p p' := by
  rintro ⟨once, held⟩
  change (p.iofhd ++ p.iobhd).Perm (List.range p.ioqsz) at once
  rw [free] at once
  rw [taken]
  exact ⟨List.perm_middle.trans once, congrArg (k :: ·) held⟩

theorem keeps_released (busy : k ∈ p.iobhd) : Keeps p (releaseIoreq p k) := by
  rintro ⟨once, held⟩
  refine ⟨?_, congrArg (·.erase k) held⟩
  change (p.iofhd ++ [k] ++ p.iobhd.erase k).Perm (List.range p.ioqsz)
  rw [List.append_assoc]
  exact ((List.perm_cons_erase busy).symm.append_left p.iofhd).trans once

theorem handled_keeps {r d : Bool} (handled : Handled c r p.slots p.setting d p') : Keeps p p' := by
  obtain ⟨setting, outcome⟩ := handled
  cases outcome with
  | failed _ _ slots | answered _ _ slots | trimmed _ _ slots | trimmedNcq _ _ slots =>
    exact keeps_same (pool_eq slots setting)
  | taken _ _ _ _ _ free _ slots | accepted _ _ _ _ _ free _ slots
  | answeredTaken _ _ _ _ _ free _ slots => exact keeps_taken free (pool_eq slots setting)

theorem fis_pool (ft : SataFisType) (v : PortView) (fis : List (BitVec 8))
    (known : (fisArea ft).isSome = true) : (ahciWriteFis v ft fis).port.pool = v.port.pool := by
  obtain ⟨is, received, port⟩ := write_fis_port ft v fis known
  rw [port]
  rfl

theorem reset_pool (v : PortView) : (ahciPortReset v).port.pool = v.port.pool := by
  unfold ahciPortReset
  dsimp only
  split
  · rfl
  · exact fis_pool .regd2h _ _ rfl

theorem issue_keeps (running : v.port.cmd &&& cmdSt ≠ 0) {g : Guest}
    (ran : issueSlot g disk v = .ok v') : Keeps v.port v'.port := by
  cases found : loadCommand g v.port v.port.ccs with
  | error f =>
    cases (issue_unfound found).symm.trans ran
  | ok c =>
    rw [issue_found found] at ran
    split_ifs at ran
    · cases ran
      exact id
    · exact handled_keeps (p := issuedPort c v.port) (command_handled running ran)
    · cases ran
      apply keeps_same
      unfold controlFis
      split_ifs
      · rfl
      · exact reset_pool ⟨v.hba, { setCcs v.port with reset := false }⟩
      · rfl

theorem loop_keeps (n : Nat) : ∀ mem v, v.port.cmd &&& cmdSt ≠ 0 →
    portLoop disk n mem v = .ended (.ok v') → Keeps v.port v'.port := by
  induction n with
  | zero => exact fun _ _ _ ended => nomatch ended
  | succ n ih =>
    intro mem v running ended
    unfold portLoop portIteration at ended
    split_ifs at ended
    · cases ended
      exact id
    · cases ran : issueSlot (mem 0) disk v with
      | error fault =>
        rw [ran] at ended
        cases ended
      | ok u =>
        rw [ran] at ended
        have kept : u.port.cmd = (setCcs v.port).cmd :=
          congrArg Setting.cmd (issue_others running ran).setting
        have still : u.port.cmd &&& cmdSt ≠ 0 := kept ▸ running_after_ccs running
        have issued : Keeps v.port u.port := issue_keeps running ran
        exact fun whole => ih _ (nextCcs u) still ended (issued whole)
    · exact ih _ (nextCcs v) running ended

theorem go_on_keeps (ran : goOn env v = .ok v') : Keeps v.port v'.port := by
  unfold goOn ahciHandlePort at ran
  split at ran
  · next result ended =>
    subst ran
    split_ifs at ended with stopped
    · cases ended
      exact id
    · exact loop_keeps _ _ v stopped ended
  · cases ran

theorem check_stopped_pool (p : AhciPort) : (ahciCheckStopped p).pool = p.pool := by
  unfold ahciCheckStopped
  split_ifs
  · rfl
  · rfl

theorem finish_keeps {slot : Nat} (ran : finishSlot env slot v = .ok v') : Keeps v.port v'.port :=
  fun whole => go_on_keeps ran (keeps_same (check_stopped_pool _) whole)

theorem d2h_pool (c : Command) (v : PortView) (tfd : BitVec 32) :
    (c.reply tfd v).port.pool = v.port.pool := by
  refine (fis_pool _ _ _ rfl).trans ?_
  cases failedTfd tfd <;> rfl

theorem reply_pool (c : Command) (v : PortView) (err : Bool) :
    (ataReply c err v).port.pool = v.port.pool := by
  unfold ataReply
  dsimp only
  by_cases ncq : isNcq (c.cfis 2) = true
  · rw [if_pos ncq]
    refine (fis_pool _ _ _ rfl).trans ?_
    cases failedTfd (if err then abortTfd else doneTfd) <;> rfl
  · rw [if_neg ncq]
    exact d2h_pool c v _

theorem resume_keeps {done : BitVec 32} (ran : ataResume env c done v = .ok v') :
    Keeps v.port v'.port := by
  unfold ataResume at ran
  split_ifs at ran
  · split at ran
    · cases ran
    · next u again trimmed =>
      have kept : Keeps v.port u.port := by
        obtain ⟨p, port, setting, slots, -⟩ | ⟨_, _, _, free, -, setting, slots, -⟩ :=
          trim_slots trimmed
        · refine keeps_same ?_
          rw [port, check_stopped_pool, pool_eq slots setting, Slots.endTrim]
          split_ifs <;> rfl
        · refine keeps_taken free ((pool_eq slots setting).trans ?_)
          split_ifs <;> rfl
      split_ifs at ran
      · exact fun whole => go_on_keeps ran (kept whole)
      · cases ran
        exact kept
  · obtain ⟨_, _, _, free, -, setting, slots⟩ := handle_rw_slots ran
    refine keeps_taken free ((pool_eq slots setting).trans ?_)
    split_ifs <;> rfl

theorem packet_read_keeps {g : Guest} {done : BitVec 32}
    (ran : atapiRead g disk c done v = .ok v') : Keeps v.port v'.port := by
  obtain ⟨_, _, _, free, -, setting, slots⟩ := atapi_read_slots ran
  refine keeps_taken free ((pool_eq slots setting).trans ?_)
  split_ifs <;> rfl

theorem callback_keeps {err : Bool} (ran : ioreqCb env k err v = .ok v') : Keeps v.port v'.port := by
  intro whole
  unfold ioreqCb at ran
  by_cases member : k ∈ v.port.queued
  · have busy : k ∈ v.port.iobhd := (show v.port.queued = v.port.iobhd from whole.held) ▸ member
    have released := keeps_released busy whole
    rw [if_pos member] at ran
    unfold atapiIoreqCb ataIoreqCb at ran
    dsimp only at ran
    cases command : resumed env (releaseIoreq v.port k) (v.port.ioreq k) with
    | error fault =>
      simp only [command] at ran
      split_ifs at ran
      · exact finish_keeps ran (keeps_same (d2h_pool _ _ _) released)
      · exact finish_keeps ran (keeps_same (reply_pool _ _ _) released)
    | ok c =>
      simp only [command] at ran
      split_ifs at ran
      · exact finish_keeps ran (keeps_same (d2h_pool _ _ _) released)
      · exact packet_read_keeps ran released
      · exact finish_keeps ran (keeps_same (d2h_pool _ _ _) released)
      · exact finish_keeps ran (keeps_same (reply_pool _ _ _) released)
      · exact resume_keeps ran released
      · exact finish_keeps ran (keeps_same (reply_pool _ _ _) released)
  · rw [if_neg member] at ran
    cases ran
    exact whole

theorem stops_keep (list : List Nat) : ∀ p : AhciPort, list.Nodup → list ⊆ p.iobhd →
    Keeps p (list.foldl (stopIoreq env) p) := by
  induction list with
  | nil => exact fun _ _ _ => id
  | cons k rest ih =>
    intro p nodup busy whole
    obtain ⟨fresh, nodup⟩ := List.nodup_cons.mp nodup
    obtain ⟨here, busy⟩ := List.cons_subset.mp busy
    have stopped : (stopIoreq env p k).pool =
        if env.cancels k then (releaseIoreq p k).pool else p.pool := by
      unfold stopIoreq
      split_ifs <;> rfl
    split_ifs at stopped
    · refine ih _ nodup (fun j member => ?_) (keeps_same stopped (keeps_released here whole))
      rw [show (stopIoreq env p k).iobhd = p.iobhd.erase k from congrArg Pool.busy stopped]
      exact (List.mem_erase_of_ne fun same : j = k => fresh (same ▸ member)).mpr (busy member)
    · refine ih _ nodup (fun j member => ?_) (keeps_same stopped whole)
      rw [show (stopIoreq env p k).iobhd = p.iobhd from congrArg Pool.busy stopped]
      exact busy member

theorem port_stop_keeps (ran : ahciPortStop env p = .ok p') : Keeps p p' := by
  intro whole
  unfold ahciPortStop at ran
  split_ifs at ran
  cases ran
  have nodup : (p.iofhd ++ p.iobhd).Nodup := whole.once.nodup_iff.mpr List.nodup_range
  have kept := @stops_keep env _ p nodup.of_append_right (List.Subset.refl _) whole
  exact keeps_same (check_stopped_pool _) kept

theorem write_cmd_keeps {value : BitVec 32} (ran : portWriteCmd env value v = .ok v') :
    Keeps v.port v'.port := by
  have received : ∀ p : AhciPort, (cmdReceive env value p).pool = p.pool := by
    intro p
    unfold cmdReceive
    dsimp only
    split_ifs <;> rfl
  unfold portWriteCmd at ran
  dsimp only at ran
  split_ifs at ran
  · obtain ⟨p, stopped, ran⟩ := bind_ok_split ran
    intro whole
    have kept := port_stop_keeps (p := { v.port with cmd := _ }) stopped whole
    exact go_on_keeps ran (keeps_same (received p) kept)
  · exact fun whole => go_on_keeps ran (keeps_same (received _) whole)

theorem port_write_keeps {offset : Nat} {value : BitVec 32}
    (ran : pciAhciPortWrite env offset value v = .ok v') : Keeps v.port v'.port := by
  have put : ∀ {u : PortView}, u.port.pool = v.port.pool → .ok u = (.ok v' : Except Fault _) →
      Keeps v.port v'.port := by
    intro u same ran
    cases ran
    exact keeps_same same
  have test : ∀ {b : Prop} [Decidable b] {x y : Except Fault PortView} {P : Prop},
      (if b then x else y) = .ok v' → (x = .ok v' → P) → (y = .ok v' → P) → P :=
    fun ran one other => (ite_split ran).elim (one ·.2) (other ·.2)
  unfold pciAhciPortWrite at ran
  refine test ran (put rfl) fun ran => test ran (put rfl) fun ran => test ran (put rfl) fun ran =>
    test ran (put rfl) fun ran => test ran (fun ran => test ran (put rfl) nofun) fun ran =>
    test ran (fun ran => test ran (put rfl) nofun) fun ran => test ran write_cmd_keeps fun ran =>
    test ran (put ?_) fun ran => test ran (put rfl) fun ran => test ran (put rfl) fun ran =>
    test ran (fun ran whole => go_on_keeps ran whole) (put rfl)
  unfold portWriteSctl
  dsimp only
  split_ifs
  · exact reset_pool _
  · rfl

def PciAhciSoftc.Whole (s : PciAhciSoftc) : Prop := ∀ i, (s.port i).pool.Whole

theorem store_whole {i : Nat} (kept : Keeps (sc.port i) v.port) (whole : sc.Whole) :
    (sc.store i v).Whole := by
  intro j
  show (Function.update sc.port i v.port j).pool.Whole
  by_cases here : j = i
  · subst here
    rw [Function.update_self]
    exact kept (whole j)
  · rw [Function.update_of_ne here]
    exact whole j

theorem at_port_whole {i : Nat} {act : PortView → Except Fault PortView}
    (keeps : ∀ v v', act v = .ok v' → Keeps v.port v'.port) (ran : atPort sc i act = .ok sc')
    (whole : sc.Whole) : sc'.Whole := by
  unfold atPort at ran
  split_ifs at ran
  · cases acted : act (sc.view i) with
    | error fault =>
      rw [acted] at ran
      cases ran
    | ok v =>
      rw [acted] at ran
      cases ran
      exact store_whole (keeps _ v acted) whole
  · cases ran
    exact whole

theorem reset_whole (whole : sc.Whole) : (ahciReset sc).Whole := by
  have ports : ∀ (list : List Nat) (sc : PciAhciSoftc), sc.Whole →
      (list.foldl (fun s i => s.store i (resetPort (s.view i))) sc).Whole := by
    intro list
    induction list with
    | nil => exact fun _ whole => whole
    | cons i rest ih => exact fun sc whole => ih _ (store_whole (keeps_same (reset_pool _)) whole)
  exact ports _ _ whole

inductive AhciEvent where
  | write (env : Env) (offset : Nat) (value : BitVec 32)
  | completion (env : Env) (i k : Nat) (err : Bool)

def ahciEvent (s : PciAhciSoftc) : AhciEvent → Except Fault PciAhciSoftc
  | .write env offset value => pciAhciWrite env offset value s
  | .completion env i k err => atPort s i (ioreqCb env k err)

theorem event_whole {event : AhciEvent} (ran : ahciEvent sc event = .ok sc') (whole : sc.Whole) :
    sc'.Whole := by
  cases event with
  | write env offset value =>
    unfold ahciEvent pciAhciWrite at ran
    dsimp only at ran
    split_ifs at ran
    · cases ran
      unfold pciAhciHostWrite
      split_ifs
      · exact reset_whole whole
      all_goals exact whole
    · exact at_port_whole (fun v v' => port_write_keeps) ran whole
  | completion env i k err => exact at_port_whole (fun v v' => callback_keeps) ran whole

theorem init_whole (disks : List (Option Bool)) : (pciAhciInit disks).Whole := by
  refine reset_whole fun i => ?_
  show (initPort _ i).pool.Whole
  unfold initPort
  split
  · exact ⟨.refl _, rfl⟩
  · exact ⟨List.append_nil _ ▸ .refl _, rfl⟩

/-- In every state of every run each request of a port is either free or busy, once, and the busy
    ones are those that the block device has. -/
theorem requests_whole (disks : List (Option Bool)) (events : List AhciEvent) :
    AlongAttempts ahciEvent (fun s _ => s.Whole) (pciAhciInit disks) events :=
  along_attempts_of_invariant (fun _ _ _ whole _ ran => event_whole ran whole)
    (fun _ _ whole _ => whole) events _ (init_whole disks)
    (along_attempts_always (fun _ _ => trivial) events _)

end Ahci
