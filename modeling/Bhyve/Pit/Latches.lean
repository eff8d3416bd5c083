import Bhyve.Pit.Programming

namespace Pit
open Fallible StepRuns List

def lowByte (count : BitVec 16) : BitVec 8 := count.setWidth 8
def highByte (count : BitVec 16) : BitVec 8 := (count >>> 8).setWidth 8

def Vatpit.later (s : Vatpit) (readings : Nat) : Vatpit :=
  { s with clock := fun i => s.clock (i + readings) }

def RunningCount (s : Vatpit) (n : Fin 3) (count : BitVec 16) : Prop :=
  ∃ readings s', pitUpdateCounter (s.later readings) n false = .ok (count, s')

def dataRead (n : Fin 3) (s : Vatpit) : Access → Option (BitVec 32)
  | .timer true (.cntr m) bytes eax =>
      if m = n ∧ bytes = 1 ∧ (s.channel n).slatched = false then
        (vatpitHandler s true (.cntr m) bytes eax).toOption.map fun r => r.2.1
      else none
  | _ => none

def dataReads (n : Fin 3) : Vatpit → List Access → List (BitVec 32)
  | _, [] => []
  | s, access :: rest =>
      (dataRead n s access).toList ++
        match step s access with
        | .ok s' => dataReads n s' rest
        | .error _ => []

def LatchesCount (n : Fin 3) : Access → Prop
  | .timer false .mode bytes eax =>
      let val := eax.setWidth 8
      bytes = 1 ∧
        (val &&& 0xc0 ≠ timerSelReadback ∧ val &&& 0x30 = timerLatch ∧ selected val = n ∨
          val &&& 0xc0 = timerSelReadback ∧ ReadsBack val n ∧ hasBits val timerRbLctr = false)
  | _ => False

def heldBytes (c : Channel) : List (BitVec 8) := ((List.range c.olbyte).map c.ol).reverse

def LatchKept (n : Fin 3) (s : Vatpit) (access : Access) : Prop :=
  ∀ s' more, LatchesCount n access → (s.channel n).olbyte = 0 → step s access = .ok s' →
    (∀ a ∈ more, setsMode n a = false) →
      ∃ count, RunningCount s n count ∧
        (dataReads n s' more).take 2 <+: [lowByte count, highByte count].map (·.setWidth 32)

def StatusFirst (n : Fin 3) (s : Vatpit) : Access → Prop
  | .timer true (.cntr m) bytes eax =>
      m = n → bytes = 1 → (s.channel n).slatched = true →
        ∃ s', vatpitHandler s true (.cntr m) bytes eax = .ok (0, (s.channel n).status.setWidth 32, s') ∧
          heldBytes (s'.channel n) = heldBytes (s.channel n)
  | _ => True

section
variable {s s' : Vatpit} {n m : Fin 3}

structure SameLatch (c c' : Channel) : Prop where
  olbyte : c'.olbyte = c.olbyte
  ol : c'.ol = c.ol

theorem same_latch_refl (c : Channel) : SameLatch c c := ⟨rfl, rfl⟩

variable {c : Channel} {cmd : BitVec 8}

theorem same_latch_trans {c' c'' : Channel} (first : SameLatch c c') (second : SameLatch c' c'') :
    SameLatch c c'' :=
  ⟨second.olbyte.trans first.olbyte, second.ol.trans first.ol⟩

theorem same_held {c' : Channel} (same : SameLatch c c') : heldBytes c' = heldBytes c := by
  unfold heldBytes
  rw [same.olbyte, same.ol]

def Later (s s' : Vatpit) : Prop := ∃ readings, s'.clock = (s.later readings).clock

theorem later_refl (s : Vatpit) : Later s s := ⟨0, rfl⟩

theorem later_next (s : Vatpit) : Later s (binuptime s).2 := ⟨1, rfl⟩

theorem later_trans {s'' : Vatpit} (first : Later s s') (second : Later s' s'') : Later s s'' := by
  obtain ⟨a, first⟩ := first
  obtain ⟨b, second⟩ := second
  refine ⟨b + a, ?_⟩
  rw [second]
  funext i
  show s'.clock (i + b) = s.clock (i + (b + a))
  rw [first, ← Nat.add_assoc]
  rfl

structure LooksAt (m : Fin 3) (s s' : Vatpit) : Prop where
  others : ∀ n, n ≠ m → s'.channel n = s.channel n
  held : (s.channel m).olbyte ≠ 0 → SameLatch (s.channel m) (s'.channel m)
  frbyte : (s'.channel m).frbyte = (s.channel m).frbyte
  later : Later s s'

theorem looks_refl (m : Fin 3) (s : Vatpit) : LooksAt m s s :=
  ⟨fun _ _ => rfl, fun _ => same_latch_refl _, rfl, later_refl s⟩

theorem looks_next (m : Fin 3) (s : Vatpit) : LooksAt m s (binuptime s).2 :=
  ⟨fun _ _ => rfl, fun _ => same_latch_refl _, rfl, later_next s⟩

theorem looks_trans {s'' : Vatpit} (first : LooksAt m s s') (second : LooksAt m s' s'') :
    LooksAt m s s'' := by
  refine ⟨fun n apart => (second.others n apart).trans (first.others n apart), ?_,
    second.frbyte.trans first.frbyte, later_trans first.later second.later⟩
  intro some_
  have same := first.held some_
  exact same_latch_trans same (second.held (by rwa [same.olbyte]))

theorem looks_set (looks : LooksAt m s s')
    (kept : (s.channel m).olbyte ≠ 0 → SameLatch (s'.channel m) c)
    (frbyte : c.frbyte = (s'.channel m).frbyte) : LooksAt m s (s'.set m c) := by
  obtain ⟨others, held, same, later⟩ := looks
  refine ⟨fun n apart => ?_, fun some_ => ?_, ?_, later⟩
  · rw [set_other _ apart]
    exact others n apart
  · rw [set_channel]
    exact same_latch_trans (held some_) (kept some_)
  · rw [set_channel, frbyte, same]

theorem repaired_looks (s : Vatpit) (m : Fin 3) : LooksAt m s (countRepaired s m) := by
  unfold countRepaired
  by_cases empty : (s.channel m).initial = 0
  · rw [if_pos empty]
    exact looks_set (looks_next m s) (fun _ => ⟨rfl, rfl⟩) rfl
  · rw [if_neg empty]
    exact looks_refl m s

theorem update_counter_looks {latch : Bool} {count : BitVec 16}
    (done : pitUpdateCounter s m latch = .ok (count, s')) : LooksAt m s s' := by
  rcases ite_split done with ⟨-, full⟩ | ⟨open_, counted⟩
  · cases full
    exact looks_refl m s
  · obtain ⟨count', -, result⟩ := bind_ok_split counted
    cases result
    have looked : LooksAt m s (binuptime (countRepaired s m)).2 :=
      looks_trans (repaired_looks s m) (looks_next m _)
    cases latch with
    | false => exact looked
    | true =>
      refine looks_set looked (fun some_ => ?_) rfl
      exact absurd (by simp [some_]) open_

theorem get_out_looks {out : Bool} (done : vatpitGetOut s m = .ok (out, s')) : LooksAt m s s' := by
  have channels := get_out_channels done
  refine ⟨fun n _ => by rw [channels], fun _ => ?_, by rw [channels], ?_⟩
  · rw [channels]
    exact same_latch_refl _
  · rcases ite_split done with ⟨-, terminal⟩ | ⟨-, rest⟩
    · cases terminal
      exact later_next s
    rcases ite_split rest with ⟨-, square⟩ | ⟨-, none_⟩
    · obtain ⟨within, -, result⟩ := bind_ok_split square
      cases result
      exact later_next s
    · cases none_
      exact later_refl s

theorem count_readback_looks (done : countReadback s m cmd = .ok s') : LooksAt m s s' := by
  rcases ite_split done with ⟨-, latched⟩ | ⟨-, same⟩
  · obtain ⟨r, updated, result⟩ := bind_ok_split latched
    cases result
    exact update_counter_looks updated
  · cases same
    exact looks_refl m _

theorem status_readback_looks (done : statusReadback s m cmd = .ok s') :
    LooksAt m s s' ∧ SameLatch (s.channel m) (s'.channel m) := by
  rcases ite_split done with ⟨-, asked⟩ | ⟨-, same⟩
  · have marked : LooksAt m s (s.set m { s.channel m with slatched := true }) :=
      looks_set (looks_refl m s) (fun _ => ⟨rfl, rfl⟩) rfl
    have own : SameLatch (s.channel m)
        ((s.set m { s.channel m with slatched := true }).channel m) := by
      rw [set_channel]
      exact ⟨rfl, rfl⟩
    rcases ite_split asked with ⟨-, looked⟩ | ⟨-, result⟩
    · obtain ⟨r, output, result⟩ := bind_ok_split looked
      cases result
      have channels := get_out_channels output
      refine ⟨looks_set (looks_trans marked (get_out_looks output)) (fun _ => ?_) ?_, ?_⟩
      · rw [channels]
        exact ⟨rfl, rfl⟩
      · rw [channels]
      · rw [set_channel]
        exact same_latch_trans own ⟨rfl, rfl⟩
    · cases result
      refine ⟨looks_set marked (fun _ => ⟨rfl, rfl⟩) rfl, ?_⟩
      rw [set_channel]
      exact same_latch_trans own ⟨rfl, rfl⟩
  · cases same
    exact ⟨looks_refl m _, same_latch_refl _⟩

theorem readback_if_looks {chosen : Bool} (done : readbackIf chosen s m cmd = .ok s') :
    LooksAt m s s' := by
  cases chosen with
  | true =>
    obtain ⟨s1, counted, read⟩ := bind_ok_split done
    exact looks_trans (count_readback_looks counted) (status_readback_looks read).1
  | false =>
    cases done
    exact looks_refl m s

end

section
variable {s s' : Vatpit} {n m : Fin 3}

def Latched (s : Vatpit) (n : Fin 3) (s' : Vatpit) : Prop :=
  ∃ count, RunningCount s n count ∧ heldBytes (s'.channel n) = [lowByte count, highByte count]

variable {count : BitVec 16} {cmd : BitVec 8}

theorem update_counter_reads {t : Vatpit} (channel : t.channel n = s.channel n)
    (clock : t.clock = s.clock) (done : pitUpdateCounter s n false = .ok (count, s')) :
    ∃ t', pitUpdateCounter t n false = .ok (count, t') := by
  obtain ⟨count', t', done', -⟩ := update_counter_ok t n false
  refine ⟨t', ?_⟩
  suffices same : count' = count by rw [← same, done']
  obtain ⟨value, counted, result⟩ := bind_ok_split done
  obtain ⟨value', counted', result'⟩ := bind_ok_split done'
  cases result
  cases result'
  have repaired : (countRepaired t n).channel n = (countRepaired s n).channel n ∧
      (countRepaired t n).clock = (countRepaired s n).clock := by
    unfold countRepaired binuptime
    dsimp only
    rw [channel, clock]
    split
    · exact ⟨by rw [set_channel, set_channel], rfl⟩
    · exact ⟨channel, clock⟩
  rw [repaired.1, repaired.2, counted] at counted'
  cases counted'
  rfl

theorem running_of_later {t : Vatpit} (channel : t.channel n = s.channel n) (later : Later s t)
    (done : pitUpdateCounter t n false = .ok (count, s')) : RunningCount s n count := by
  obtain ⟨readings, clock⟩ := later
  obtain ⟨t', done'⟩ := update_counter_reads (t := s.later readings) channel.symm clock.symm done
  exact ⟨readings, t', done'⟩

theorem running_next (done : pitUpdateCounter s n false = .ok (count, s')) :
    RunningCount s n count := running_of_later rfl (later_refl s) done

theorem latch_counter (empty : (s.channel n).olbyte = 0)
    (done : pitUpdateCounter s n true = .ok (count, s')) : Latched s n s' := by
  obtain ⟨count', s'', done', -⟩ := update_counter_ok s n false
  refine ⟨count', running_next done', ?_⟩
  unfold pitUpdateCounter at done done'
  rw [empty] at done
  obtain ⟨value, counted, result⟩ := bind_ok_split done
  obtain ⟨value', counted', result'⟩ := bind_ok_split done'
  rw [counted] at counted'
  cases counted'
  cases result
  cases result'
  rw [if_pos rfl, set_channel]
  rfl

theorem count_readback_latches (low : hasBits cmd timerRbLctr = false)
    (empty : (s.channel n).olbyte = 0) (done : countReadback s n cmd = .ok s') :
    Latched s n s' := by
  unfold countReadback at done
  rw [low, empty] at done
  obtain ⟨r, updated, result⟩ := bind_ok_split done
  cases result
  exact latch_counter empty updated

theorem readback_latches {start : Vatpit} (channel : s.channel n = start.channel n)
    (later : Later start s) (low : hasBits cmd timerRbLctr = false)
    (empty : (start.channel n).olbyte = 0) (done : readbackIf true s n cmd = .ok s') :
    Latched start n s' := by
  obtain ⟨s1, counted, read⟩ := bind_ok_split done
  obtain ⟨count, ⟨readings, t, running⟩, held⟩ :=
    count_readback_latches low (by rwa [channel]) counted
  have since : Later start (s.later readings) := later_trans later ⟨readings, rfl⟩
  refine ⟨count, running_of_later (t := s.later readings) channel since running, ?_⟩
  rw [same_held (status_readback_looks read).2, held]

theorem readback_stages (done : pitReadback s cmd = .ok s') :
    ∃ s1 s2, readbackIf (hasBits cmd timerRbCtr0) s channel0 cmd = .ok s1 ∧
      readbackIf (hasBits cmd timerRbCtr1) s1 channel1 cmd = .ok s2 ∧
      readbackIf (hasBits cmd timerRbCtr2) s2 channel2 cmd = .ok s' := by
  obtain ⟨s1, first, rest⟩ := bind_ok_split done
  obtain ⟨s2, second, third⟩ := bind_ok_split rest
  exact ⟨s1, s2, first, second, third⟩

theorem looks_held (looks : LooksAt m s s') (some_ : (s.channel n).olbyte ≠ 0) :
    SameLatch (s.channel n) (s'.channel n) := by
  by_cases own : n = m
  · subst own
    exact looks.held some_
  · rw [looks.others n own]
    exact same_latch_refl _

theorem readback_held (done : pitReadback s cmd = .ok s') (some_ : (s.channel n).olbyte ≠ 0) :
    SameLatch (s.channel n) (s'.channel n) := by
  obtain ⟨s1, s2, first, second, third⟩ := readback_stages done
  have same1 := looks_held (readback_if_looks first) some_
  have same2 := looks_held (readback_if_looks second) (by rwa [same1.olbyte])
  have same3 := looks_held (readback_if_looks third) (by rwa [same2.olbyte, same1.olbyte])
  exact same_latch_trans same1 (same_latch_trans same2 same3)

theorem latched_after {s'' : Vatpit} (latched : Latched s n s') (looks : LooksAt m s' s'')
    (apart : n ≠ m) : Latched s n s'' := by
  obtain ⟨count, running, held⟩ := latched
  exact ⟨count, running, by rw [looks.others n apart, held]⟩

theorem readback_latched (low : hasBits cmd timerRbLctr = false) (chosen : ReadsBack cmd n)
    (empty : (s.channel n).olbyte = 0) (done : pitReadback s cmd = .ok s') : Latched s n s' := by
  obtain ⟨s1, s2, first, second, third⟩ := readback_stages done
  have looks1 := readback_if_looks first
  have looks2 := readback_if_looks second
  have looks3 := readback_if_looks third
  rcases chosen with ⟨rfl, bit⟩ | ⟨rfl, bit⟩ | ⟨rfl, bit⟩
  · rw [bit] at first
    have latched := readback_latches rfl (later_refl s) low empty first
    exact latched_after (latched_after latched looks2 (by decide)) looks3 (by decide)
  · rw [bit] at second
    have same := looks1.others channel1 (by decide)
    have latched := readback_latches same looks1.later low empty second
    exact latched_after latched looks3 (by decide)
  · rw [bit] at third
    have same : s2.channel channel2 = s.channel channel2 :=
      (looks2.others channel2 (by decide)).trans (looks1.others channel2 (by decide))
    exact readback_latches same (later_trans looks1.later looks2.later) low empty third

theorem latch_command {access : Access} (latches : LatchesCount n access)
    (empty : (s.channel n).olbyte = 0) (done : step s access = .ok s') : Latched s n s' := by
  cases access with
  | timer isIn port bytes eax =>
    cases isIn with
    | true => exact latches.elim
    | false =>
      cases port with
      | cntr m => exact latches.elim
      | mode =>
        obtain ⟨rfl, commands⟩ := latches
        obtain ⟨r, handled, result⟩ := bind_ok_split done
        cases result
        obtain ⟨r', updated, result⟩ := bind_ok_split handled
        cases result
        unfold vatpitUpdateMode at updated
        rcases commands with ⟨single, latch, rfl⟩ | ⟨readback, chosen, low⟩
        · rw [if_neg single, latch, if_neg (by decide), if_neg fun both => both.1 rfl, if_pos rfl]
            at updated
          obtain ⟨r'', latched, result⟩ := bind_ok_split updated
          cases result
          exact latch_counter empty latched
        · rw [if_pos readback] at updated
          obtain ⟨s1, read, result⟩ := bind_ok_split updated
          cases result
          exact readback_latched low chosen empty read
  | speaker => exact latches.elim
  | expire => exact latches.elim
  | callout => exact latches.elim

end

section
variable {s s' : Vatpit} {n m : Fin 3}

structure SameReads (c c' : Channel) : Prop extends SameLatch c c' where
  frbyte : c'.frbyte = c.frbyte

theorem same_reads_refl (c : Channel) : SameReads c c := ⟨same_latch_refl c, rfl⟩

variable {c : Channel} {eax : BitVec 32} {access : Access}

theorem same_reads_trans {c' c'' : Channel} (first : SameReads c c') (second : SameReads c' c'') :
    SameReads c c'' :=
  ⟨same_latch_trans first.toSameLatch second.toSameLatch, second.frbyte.trans first.frbyte⟩

theorem same_reads_set {t : Vatpit} (same : SameReads (s.channel n) (t.channel n)) (m : Fin 3)
    (kept : SameReads (t.channel m) c) : SameReads (s.channel n) ((t.set m c).channel n) := by
  by_cases own : n = m
  · subst own
    rw [set_channel]
    exact same_reads_trans same kept
  · rw [set_other t own]
    exact same

theorem start_reads (s : Vatpit) (n : Fin 3) :
    SameReads (s.channel n) ((pitTimerStartCntr0 s).channel n) := by
  unfold pitTimerStartCntr0 binuptime
  dsimp only
  split
  · exact same_reads_set (same_reads_refl _) channel0 ⟨⟨rfl, rfl⟩, rfl⟩
  · exact same_reads_refl _

theorem callout_reads (s : Vatpit) (n : Fin 3) :
    SameReads (s.channel n) ((vatpitCalloutHandler s).channel n) := by
  unfold vatpitCalloutHandler
  dsimp only
  split
  · exact same_reads_refl _
  · split
    · refine same_reads_trans ?_ (start_reads _ n)
      exact same_reads_set (same_reads_refl _) channel0 ⟨⟨rfl, rfl⟩, rfl⟩
    · exact same_reads_set (same_reads_refl _) channel0 ⟨⟨rfl, rfl⟩, rfl⟩

theorem count_loaded_reads (s : Vatpit) (m n : Fin 3) :
    SameLatch (s.channel n) ((countLoaded s m).channel n) ∧
      ((countLoaded s m).channel n).frbyte = if n = m then false else (s.channel n).frbyte := by
  unfold countLoaded
  dsimp only
  generalize loaded : (binuptime s).2.set m _ = s1
  have first : SameLatch (s.channel n) (s1.channel n) ∧
      (s1.channel n).frbyte = if n = m then false else (s.channel n).frbyte := by
    rw [← loaded]
    by_cases own : n = m
    · subst own
      rw [set_channel, if_pos rfl]
      exact ⟨⟨rfl, rfl⟩, rfl⟩
    · rw [set_other _ own, if_neg own]
      exact ⟨same_latch_refl _, rfl⟩
  generalize started : (if m = channel0 then _ else s1) = s2
  have second : SameReads (s1.channel n) (s2.channel n) := by
    rw [← started]
    split
    · refine same_reads_trans ?_ (start_reads _ n)
      exact same_reads_set (same_reads_refl _) m ⟨⟨rfl, rfl⟩, rfl⟩
    · exact same_reads_refl _
  have whole : SameReads (s1.channel n) ((if ((s.channel m).cr 0).setWidth 16 |||
      ((s.channel m).cr 1).setWidth 16 <<< 8 = 0 then s2.set m { s2.channel m with initial := 0xffff }
      else s2).channel n) := by
    split
    · exact same_reads_set second m ⟨⟨rfl, rfl⟩, rfl⟩
    · exact second
  exact ⟨same_latch_trans first.1 whole.toSameLatch, whole.frbyte.trans first.2⟩

def Completes (n : Fin 3) (s : Vatpit) : Access → Bool
  | .timer false (.cntr m) bytes _ => bytes == 1 && m == n && (s.channel n).crbyte + 1 == 2
  | _ => false

theorem counter_write_reads (s : Vatpit) (m n : Fin 3) (eax : BitVec 32) :
    SameLatch (s.channel n) ((counterWrite s m eax).channel n) ∧
      ((counterWrite s m eax).channel n).frbyte =
        if m = n ∧ (s.channel n).crbyte + 1 = 2 then false else (s.channel n).frbyte := by
  unfold counterWrite
  dsimp only
  generalize stored : s.set m _ = s1
  have first : SameReads (s.channel n) (s1.channel n) := by
    rw [← stored]
    exact same_reads_set (same_reads_refl _) m ⟨⟨rfl, rfl⟩, rfl⟩
  by_cases whole : (s.channel m).crbyte + 1 = 2
  · rw [if_pos whole]
    obtain ⟨latch, frbyte⟩ := count_loaded_reads s1 m n
    refine ⟨same_latch_trans first.toSameLatch latch, ?_⟩
    rw [frbyte, first.frbyte]
    by_cases own : m = n
    · subst own
      rw [if_pos rfl, if_pos ⟨rfl, whole⟩]
    · rw [if_neg fun same => own same.symm, if_neg fun both => own both.1]
  · rw [if_neg whole]
    refine ⟨first.toSameLatch, ?_⟩
    rw [first.frbyte, if_neg]
    rintro ⟨rfl, complete⟩
    exact whole complete

def readsFrom (n : Fin 3) : Access → Bool
  | .timer true (.cntr m) bytes _ => bytes == 1 && m == n
  | _ => false

theorem looks_frbyte (looks : LooksAt m s s') : (s'.channel n).frbyte = (s.channel n).frbyte := by
  by_cases own : n = m
  · subst own
    exact looks.frbyte
  · rw [looks.others n own]

theorem readback_frbyte {cmd : BitVec 8} (done : pitReadback s cmd = .ok s') :
    (s'.channel n).frbyte = (s.channel n).frbyte := by
  obtain ⟨s1, s2, first, second, third⟩ := readback_stages done
  rw [looks_frbyte (readback_if_looks third), looks_frbyte (readback_if_looks second),
    looks_frbyte (readback_if_looks first)]

theorem sets_mode {val : BitVec 8} (byte : eax.setWidth 8 = val)
    (single : val &&& 0xc0 ≠ timerSelReadback) (own : selected val = n)
    (width : ¬(val &&& 0x30 ≠ timerLatch ∧ val &&& 0x30 ≠ timer16Bit))
    (sets : val &&& 0x30 ≠ timerLatch)
    (accepted : ¬(val &&& 0x30 ≠ timerLatch ∧ val &&& 0x0f ≠ timerIntTc ∧ val &&& 0x0f ≠ timerRateGen ∧ val &&& 0x0f ≠ timerSqWave ∧ val &&& 0x0f ≠ timerSwStrobe)) :
    setsMode n (.timer false .mode 1 eax) = true := by
  have both : val &&& 0x30 = timer16Bit :=
    Classical.byContradiction fun other => width ⟨sets, other⟩
  have mode : val &&& 0x0f = timerIntTc ∨ val &&& 0x0f = timerRateGen ∨
      val &&& 0x0f = timerSqWave ∨ val &&& 0x0f = timerSwStrobe := by
    apply Classical.byContradiction
    intro none_
    simp only [not_or] at none_
    exact accepted ⟨sets, none_⟩
  unfold setsMode
  simp only [byte, Bool.and_eq_true, Bool.or_eq_true, beq_iff_eq, bne_iff_ne]
  exact ⟨⟨⟨⟨trivial, single⟩, own⟩, both⟩, by simpa only [or_assoc] using mode⟩

theorem update_mode_held {error : Int}
    (done : vatpitUpdateMode s (eax.setWidth 8) = .ok (error, s')) :
    ((s.channel n).olbyte ≠ 0 → setsMode n (.timer false .mode 1 eax) = false →
        SameLatch (s.channel n) (s'.channel n)) ∧
      (s'.channel n).frbyte = (s.channel n).frbyte := by
  have unchanged : ((s.channel n).olbyte ≠ 0 → setsMode n (.timer false .mode 1 eax) = false →
      SameLatch (s.channel n) (s.channel n)) ∧ (s.channel n).frbyte = (s.channel n).frbyte :=
    ⟨fun _ _ => same_latch_refl _, rfl⟩
  rcases ite_split done with ⟨-, readback⟩ | ⟨single, rest⟩
  · obtain ⟨s1, read, result⟩ := bind_ok_split readback
    cases result
    exact ⟨fun some_ _ => readback_held read some_, readback_frbyte read⟩
  rcases ite_split rest with ⟨-, refused⟩ | ⟨width, rest⟩
  · cases refused
    exact unchanged
  rcases ite_split rest with ⟨-, refused⟩ | ⟨accepted, rest⟩
  · cases refused
    exact unchanged
  rcases ite_split rest with ⟨-, latch⟩ | ⟨sets, mode⟩
  · obtain ⟨r, latched, result⟩ := bind_ok_split latch
    cases result
    have looks := update_counter_looks latched
    exact ⟨fun some_ _ => looks_held looks some_, looks_frbyte looks⟩
  · cases mode
    by_cases own : n = selected (eax.setWidth 8)
    · refine ⟨fun _ kept => ?_, ?_⟩
      · rw [sets_mode rfl single own.symm width sets accepted] at kept
        cases kept
      · subst own
        rw [set_channel]
    · rw [set_other s own]
      exact unchanged

theorem counter_read_other (apart : n ≠ m) (done : counterRead s m = .ok (eax, s')) :
    s'.channel n = s.channel n := by
  rcases ite_split done with ⟨-, status⟩ | ⟨-, rest⟩
  · cases status
    exact set_other _ apart _
  rcases ite_split rest with ⟨-, running⟩ | ⟨-, latched⟩
  · obtain ⟨r, counted, result⟩ := bind_ok_split running
    cases result
    rw [set_other _ apart]
    exact (update_counter_looks counted).others n apart
  · cases latched
    exact set_other _ apart _

theorem step_elsewhere (done : step s access = .ok s') (elsewhere : readsFrom n access = false) :
    ((s.channel n).olbyte ≠ 0 → setsMode n access = false →
        SameLatch (s.channel n) (s'.channel n)) ∧
      (s'.channel n).frbyte = if Completes n s access then false else (s.channel n).frbyte := by
  cases access with
  | callout =>
    cases done
    have same := callout_reads s n
    exact ⟨fun _ _ => same.toSameLatch, same.frbyte⟩
  | expire =>
    cases done
    have same : SameReads (s.channel n) ((s.set channel0 { s.channel channel0 with
        callout := { (s.channel channel0).callout with pending := false } }).channel n) :=
      same_reads_set (same_reads_refl _) channel0 ⟨⟨rfl, rfl⟩, rfl⟩
    exact ⟨fun _ _ => same.toSameLatch, same.frbyte⟩
  | speaker isIn eax =>
    obtain ⟨r, handled, result⟩ := bind_ok_split done
    cases result
    rcases ite_split handled with ⟨-, input⟩ | ⟨-, output⟩
    · obtain ⟨r, out, result⟩ := bind_ok_split input
      cases result
      have looks := get_out_looks out
      exact ⟨fun some_ _ => looks_held looks some_, looks_frbyte looks⟩
    · cases output
      exact ⟨fun _ _ => same_latch_refl _, rfl⟩
  | timer isIn port bytes eax =>
    obtain ⟨r, handled, result⟩ := bind_ok_split done
    cases result
    unfold vatpitHandler at handled
    by_cases several : bytes ≠ 1
    · rw [if_pos several] at handled
      cases handled
      refine ⟨fun _ _ => same_latch_refl _, ?_⟩
      have never : Completes n s (.timer isIn port bytes eax) = false := by
        cases isIn with
        | true => rfl
        | false =>
          cases port with
          | mode => rfl
          | cntr m => simp [Completes, several]
      rw [never]
      rfl
    rw [if_neg several] at handled
    obtain rfl : bytes = 1 := Classical.not_not.mp several
    cases port with
    | mode =>
      rcases ite_split handled with ⟨input, refused⟩ | ⟨output, set⟩
      · cases refused
        subst input
        exact ⟨fun _ _ => same_latch_refl _, rfl⟩
      · obtain ⟨r, updated, result⟩ := bind_ok_split set
        cases result
        rw [Bool.not_eq_true] at output
        subst output
        exact update_mode_held updated
    | cntr m =>
      rcases ite_split handled with ⟨input, read⟩ | ⟨output, written⟩
      · subst input
        obtain ⟨r, got, result⟩ := bind_ok_split read
        cases result
        have apart : n ≠ m := by
          rintro rfl
          simp [readsFrom] at elsewhere
        have same := counter_read_other apart got
        rw [same]
        exact ⟨fun _ _ => same_latch_refl _, rfl⟩
      · cases written
        rw [Bool.not_eq_true] at output
        subst output
        obtain ⟨latch, frbyte⟩ := counter_write_reads s m n eax
        refine ⟨fun _ _ => latch, frbyte.trans ?_⟩
        unfold Completes
        simp

theorem counter_read_status (latched : (s.channel n).slatched = true) :
    counterRead s n = .ok ((s.channel n).status.setWidth 32,
      s.set n { s.channel n with slatched := false, status := 0 }) := if_pos latched

theorem counter_read_held {k : Nat} (free : (s.channel n).slatched = false)
    (held : (s.channel n).olbyte = k + 1) : counterRead s n =
      .ok (((s.channel n).ol k).setWidth 32, s.set n { s.channel n with olbyte := k }) := by
  unfold counterRead
  dsimp only
  rw [free, if_neg Bool.false_ne_true, held, if_neg (Nat.succ_ne_zero k), Nat.add_sub_cancel]

theorem low_byte (count : BitVec 16) : (count &&& 0xff).setWidth 32 = (lowByte count).setWidth 32 := by
  have mask : (0xff : BitVec 16).toNat = 2 ^ 8 - 1 := rfl
  apply BitVec.eq_of_toNat_eq
  rw [lowByte, BitVec.toNat_setWidth, BitVec.toNat_setWidth, BitVec.toNat_setWidth, BitVec.toNat_and,
    mask, Nat.and_two_pow_sub_one_eq_mod]

theorem high_byte (count : BitVec 16) :
    (count >>> 8 &&& 0xff).setWidth 32 = (highByte count).setWidth 32 := low_byte (count >>> 8)

theorem counter_read_running (free : (s.channel n).slatched = false)
    (empty : (s.channel n).olbyte = 0) :
    ∃ count s1, pitUpdateCounter s n false = .ok (count, s1) ∧ counterRead s n =
      .ok ((if (s.channel n).frbyte then highByte count else lowByte count).setWidth 32,
        s1.set n { s1.channel n with frbyte := !(s.channel n).frbyte }) := by
  obtain ⟨count, s1, counted, -⟩ := update_counter_ok s n false
  have frbyte := (update_counter_looks counted).frbyte
  refine ⟨count, s1, counted, ?_⟩
  unfold counterRead
  dsimp only
  rw [free, if_neg Bool.false_ne_true, if_pos empty, bind_ok counted]
  rw [frbyte]
  cases (s.channel n).frbyte with
  | true => rw [if_pos rfl, if_pos rfl, high_byte]
  | false => rw [if_neg Bool.false_ne_true, if_neg Bool.false_ne_true, low_byte]

theorem held_next {k : Nat} (held : c.olbyte = k + 1) :
    heldBytes c = c.ol k :: heldBytes { c with olbyte := k } := by
  unfold heldBytes
  rw [held, range_succ, map_append, map_singleton, List.reverse_append]
  rfl

theorem reads_from (reads : readsFrom n access = true) :
    ∃ eax, access = .timer true (.cntr n) 1 eax := by
  cases access with
  | timer isIn port bytes eax =>
    cases isIn with
    | false => cases reads
    | true =>
      cases port with
      | mode => cases reads
      | cntr m =>
        simp only [readsFrom, Bool.and_eq_true, beq_iff_eq] at reads
        obtain ⟨rfl, rfl⟩ := reads
        exact ⟨eax, rfl⟩
  | speaker | expire | callout => cases reads

theorem no_data (elsewhere : readsFrom n access = false) : dataRead n s access = none := by
  cases access with
  | timer isIn port bytes eax =>
    cases isIn with
    | false => rfl
    | true =>
      cases port with
      | mode => rfl
      | cntr m =>
        refine if_neg fun all => ?_
        obtain ⟨rfl, rfl, -⟩ := all
        simp [readsFrom] at elsewhere
  | speaker | expire | callout => rfl

theorem read_step {x eax : BitVec 32} (read : counterRead s n = .ok (x, s')) :
    step s (.timer true (.cntr n) 1 eax) = .ok s' ∧
      dataRead n s (.timer true (.cntr n) 1 eax) =
        if (s.channel n).slatched = false then some x else none := by
  have handled : vatpitHandler s true (.cntr n) 1 eax = .ok (0, x, s') := by
    unfold vatpitHandler
    rw [if_neg fun never => never rfl]
    dsimp only
    rw [if_pos rfl, bind_ok read]
  refine ⟨?_, ?_⟩
  · exact bind_ok handled
  · dsimp only [dataRead]
    rw [handled]
    by_cases free : (s.channel n).slatched = false
    · rw [if_pos ⟨rfl, rfl, free⟩, if_pos free]
      rfl
    · rw [if_neg fun all => free all.2.2, if_neg free]

theorem held_reads (more : List Access) : ∀ (s : Vatpit) (bytes : List (BitVec 8)),
    heldBytes (s.channel n) = bytes → (∀ a ∈ more, setsMode n a = false) →
      (dataReads n s more).take bytes.length <+: bytes.map (·.setWidth 32) := by
  induction more with
  | nil =>
    intro s bytes _ _
    unfold dataReads
    rw [take_nil]
    exact nil_prefix
  | cons access rest ih =>
    intro s bytes held kept
    have kept_ : ∀ a ∈ rest, setsMode n a = false := fun a inside =>
      kept a (mem_cons_of_mem access inside)
    cases bytes with
    | nil => exact nil_prefix
    | cons b bs =>
      unfold dataReads
      cases reads : readsFrom n access with
      | false =>
        rw [no_data reads, Option.toList_none, nil_append]
        cases done : step s access with
        | error trap =>
          exact nil_prefix
        | ok s' =>
          have some_ : (s.channel n).olbyte ≠ 0 := by
            intro empty
            unfold heldBytes at held
            rw [empty] at held
            cases held
          have same := (step_elsewhere done reads).1 some_ (kept access mem_cons_self)
          exact ih s' (b :: bs) ((same_held same).trans held) kept_
      | true =>
        obtain ⟨eax, rfl⟩ := reads_from reads
        cases latched : (s.channel n).slatched with
        | true =>
          obtain ⟨done, data⟩ := @read_step s _ n _ eax (counter_read_status latched)
          rw [latched, if_neg (by decide)] at data
          rw [data, done, Option.toList_none, nil_append]
          refine ih _ (b :: bs) ?_ kept_
          rw [set_channel]
          exact held
        | false =>
          cases count : (s.channel n).olbyte with
          | zero =>
            unfold heldBytes at held
            rw [count] at held
            cases held
          | succ k =>
            obtain ⟨done, data⟩ := @read_step s _ n _ eax (counter_read_held latched count)
            rw [held_next count] at held
            obtain ⟨first, others⟩ := List.cons.inj held
            rw [latched, if_pos rfl, first] at data
            rw [data, done, Option.toList_some, singleton_append, length_cons,
              take_succ_cons, map_cons]
            refine prefix_cons_inj _ |>.mpr (ih _ bs ?_ kept_)
            rw [set_channel]
            exact others

theorem latch_kept (s : Vatpit) (access : Access) : LatchKept n s access := by
  intro s' more latches empty done kept
  obtain ⟨count, running, held⟩ := latch_command latches empty done
  exact ⟨count, running, held_reads more s' _ held kept⟩

theorem status_first (s : Vatpit) (access : Access) : StatusFirst n s access := by
  cases access with
  | timer isIn port bytes eax =>
    cases isIn with
    | false => trivial
    | true =>
      cases port with
      | mode => trivial
      | cntr m =>
        rintro rfl rfl latched
        refine ⟨s.set m { s.channel m with slatched := false, status := 0 }, ?_, ?_⟩
        · unfold vatpitHandler
          rw [if_neg fun never => never rfl]
          dsimp only
          rw [if_pos rfl, bind_ok (counter_read_status latched)]
        · rw [set_channel]
          rfl
  | speaker | expire | callout => trivial

end

section
variable {n : Fin 3}

structure Followed where
  pit : Vatpit
  reads : Nat

def Followed.readsAfter (n : Fin 3) (s : Followed) (access : Access) : Nat :=
  if Completes n s.pit access then 0
  else if (dataRead n s.pit access).isSome && (s.pit.channel n).olbyte == 0 then s.reads + 1
  else s.reads

def Followed.step (n : Fin 3) (s : Followed) (access : Access) : Except Trap Followed := do
  let pit ← Pit.step s.pit access
  .ok ⟨pit, s.readsAfter n access⟩

/-- Without a latched count a read returns a byte of the running count, in turn low and high. -/
def Followed.Follows (n : Fin 3) (s : Followed) (access : Access) : Prop :=
  (s.pit.channel n).olbyte = 0 → ∀ x, dataRead n s.pit access = some x →
    ∃ count, RunningCount s.pit n count ∧
      x = (if s.reads % 2 = 0 then lowByte count else highByte count).setWidth 32

structure Followed.Returns (n : Fin 3) (s : Followed) (access : Access) : Prop where
  latched : LatchKept n s.pit access
  status : StatusFirst n s.pit access
  running : s.Follows n access

def Followed.InTurn (n : Fin 3) (s : Followed) : Prop :=
  (s.pit.channel n).frbyte = decide (s.reads % 2 = 1)

def Followed.start (clock : Nat → Bintime) : Followed := ⟨vatpitInit clock, 0⟩

theorem in_turn_follows {s : Followed} (turn : s.InTurn n) (access : Access) : s.Follows n access := by
  intro empty x data
  cases reads : readsFrom n access with
  | false =>
    rw [no_data reads] at data
    cases data
  | true =>
    obtain ⟨eax, rfl⟩ := reads_from reads
    cases latched : (s.pit.channel n).slatched with
    | true =>
      have result := (@read_step s.pit _ n _ eax (counter_read_status latched)).2
      rw [latched, if_neg (by decide), data] at result
      cases result
    | false =>
      obtain ⟨count, s1, counted, read⟩ := counter_read_running latched empty
      have result := (@read_step s.pit _ n _ eax read).2
      rw [latched, if_pos rfl, data, turn] at result
      refine ⟨count, running_next counted, ?_⟩
      cases result
      by_cases even : s.reads % 2 = 0
      · rw [if_pos even, if_neg (by rw [decide_eq_true_iff]; omega)]
      · rw [if_neg even, if_pos (by rw [decide_eq_true_iff]; omega)]

theorem step_in_turn {s s' : Followed} {access : Access} (turn : s.InTurn n)
    (done : s.step n access = .ok s') : s'.InTurn n := by
  obtain ⟨pit, stepped, result⟩ := bind_ok_split done
  cases result
  unfold Followed.InTurn at turn ⊢
  unfold Followed.readsAfter
  cases reads : readsFrom n access with
  | false =>
    rw [(step_elsewhere stepped reads).2, no_data reads]
    by_cases complete : Completes n s.pit access = true
    · rw [if_pos complete, if_pos complete]
      rfl
    · rw [if_neg complete, if_neg complete]
      exact turn
  | true =>
    obtain ⟨eax, rfl⟩ := reads_from reads
    have never : ¬Completes n s.pit (.timer true (.cntr n) 1 eax) = true := by rintro ⟨⟩
    rw [if_neg never]
    cases latched : (s.pit.channel n).slatched with
    | true =>
      obtain ⟨done', data⟩ := @read_step s.pit _ n _ eax (counter_read_status latched)
      rw [done'] at stepped
      cases stepped
      rw [latched, if_neg (by decide)] at data
      rw [data, set_channel]
      exact turn
    | false =>
      cases held : (s.pit.channel n).olbyte with
      | zero =>
        obtain ⟨count, s1, counted, read⟩ := counter_read_running latched held
        obtain ⟨done', data⟩ := @read_step s.pit _ n _ eax read
        rw [done'] at stepped
        cases stepped
        rw [latched, if_pos rfl] at data
        rw [data, set_channel]
        show (!(s.pit.channel n).frbyte) = decide ((s.reads + 1) % 2 = 1)
        rw [turn, ← decide_not]
        exact decide_eq_decide.mpr (by omega)
      | succ k =>
        obtain ⟨done', data⟩ := @read_step s.pit _ n _ eax (counter_read_held latched held)
        rw [done'] at stepped
        cases stepped
        rw [set_channel, if_neg (by simp)]
        exact turn

/-- Whatever the accesses to the timer, and on each of its channels. -/
theorem reads_returned (clock : Nat → Bintime) (n : Fin 3) (accesses : List Access) :
    AlongAttempts (Followed.step n) (Followed.Returns n) (Followed.start clock) accesses := by
  have always : AlongAttempts (Followed.step n) (fun _ _ => True) (Followed.start clock) accesses :=
    along_attempts_always (fun _ _ => trivial) accesses _
  have start : (Followed.start clock).InTurn n := rfl
  exact along_attempts_of_invariant (fun _ _ _ turn _ done => step_in_turn turn done)
    (fun s access turn _ => ⟨latch_kept s.pit access, status_first s.pit access,
      in_turn_follows turn access⟩) accesses _ start always

theorem still_clock {s : Vatpit} {count : BitVec 16} (still : ∀ i, s.clock i = s.clock 0)
    (running : RunningCount s n count) :
    (pitUpdateCounter s n false).toOption.map Prod.fst = some count := by
  obtain ⟨readings, s', done⟩ := running
  have same : s.later readings = s := by
    unfold Vatpit.later
    congr 1
    funext i
    rw [still, still i]
  rw [same] at done
  rw [done]
  rfl

def readOnce : Vatpit :=
  ((attempts step (vatpitInit fun _ => ⟨0, 0⟩) [.timer true (.cntr channel0) 1 0]).toOption).getD
    (vatpitInit fun _ => ⟨0, 0⟩)

theorem high_byte_first :
    ¬∀ (clock : Nat → Bintime) (accesses : List Access) (s s1 : Vatpit) (n : Fin 3) (x y : BitVec 32),
      attempts step (vatpitInit clock) accesses = .ok s → (s.channel n).olbyte = 0 →
        dataRead n s (.timer true (.cntr n) 1 0) = some x →
        step s (.timer true (.cntr n) 1 0) = .ok s1 →
        dataRead n s1 (.timer true (.cntr n) 1 0) = some y →
          ∃ first second, RunningCount s n first ∧ RunningCount s1 n second ∧
            x = (lowByte first).setWidth 32 ∧ y = (highByte second).setWidth 32 := by
  intro every
  obtain ⟨first, -, running, -, low, -⟩ := every (fun _ => ⟨0, 0⟩)
    [.timer true (.cntr channel0) 1 0] readOnce _ channel0 0x2e _ rfl rfl (by decide +kernel) rfl rfl
  have value : (pitUpdateCounter readOnce channel0 false).toOption.map Prod.fst = some 11932 := by
    decide +kernel
  have count := still_clock (fun _ => rfl) running
  cases count
  exact absurd low (by decide)

end

end Pit
