import Mathlib.Data.List.Nodup
import Bhyve.Mevent.Registry

namespace Mevent
open StepRuns Function List Option
variable {s s' : Registry} {w : Watched}

/-- Every event is on one list, once, and me_cq says on which. -/
structure Listed (s : Registry) : Prop where
  nodup : (s.globalHead ++ s.changeHead).Nodup
  live : ∀ e, (s.mem e).isSome ↔ e ∈ s.globalHead ++ s.changeHead
  cq : ∀ e m, s.mem e = some m → (m.cq = true ↔ e ∈ s.changeHead)

def Pc.applied : Pc → Bool
  | .change _ => false
  | _ => true

/-- When nothing is left to be passed on, the queue of the kernel holds the events that are wanted
    and no others, enabled as they were last to be. -/
def Synced (w : Watched) : Prop :=
  w.s.changeHead = [] → w.s.pc.applied = true → ∀ key e b,
    w.s.kq key = some ⟨e, b⟩ ↔ w.wanted e = some b ∧ ∃ m, w.s.mem e = some m ∧ m.key = key

structure Current (w : Watched) : Prop where
  listed : Listed w.s
  synced : Synced w

def Registry.events (s : Registry) : List Nat := s.globalHead ++ s.changeHead

def Registry.at (s : Registry) (e : Nat) (p : Event → Bool) : Bool := (s.mem e).any p

def Registry.closing (s : Registry) (fd : Nat) : Bool :=
  s.changeHead.any fun e => s.at e fun m => m.closefd && decide (m.fd = fd)

def Registry.left (s : Registry) (key : Key) : Option Knote :=
  if key.filter.onFd ∧ s.closing key.ident then none else s.kq key

def Registry.unknown (s : Registry) (e : Nat) : Bool :=
  s.at e fun m => m.state.delete && !m.closefd && decide (s.left m.key = none)

/-- Nothing that the kernel has to see is behind the deletion of an event that it does not have. -/
def LastUnknown (s : Registry) : List Nat → Prop
  | [] => True
  | e :: rest =>
      (s.unknown e = true → ∀ e' ∈ rest, (s.at e' (·.closefd) || s.unknown e') = true) ∧
        LastUnknown s rest

instance decidableLastUnknown (s : Registry) : ∀ l, Decidable (LastUnknown s l)
  | [] => .isTrue trivial
  | _ :: rest => @instDecidableAnd _ _ inferInstance (decidableLastUnknown s rest)

def ClosesLast (s : Registry) : Prop :=
  ∀ e ∈ s.changeHead, ∀ m ∈ s.mem e, m.closefd = true → m.type.onFd = true ∧
    ∀ e' ∈ s.events, ∀ m' ∈ s.mem e', m'.type.onFd = true → m'.fd = m.fd → m'.state.delete = true

def AddsOpen (s : Registry) : Prop :=
  ∀ e ∈ s.changeHead, ∀ m ∈ s.mem e, m.state.add = true → m.type.onFd = true → s.fds m.fd = true

/-- The queued changes fit, and the kernel takes all of them that matter. -/
structure Passes (s : Registry) : Prop where
  fits : (s.changeHead.filter fun e => !s.at e (·.closefd)).length < meventMax
  closesLast : ClosesLast s
  addsOpen : AddsOpen s
  lastUnknown : LastUnknown s s.changeHead

instance (s : Registry) : Decidable (ClosesLast s) :=
  inferInstanceAs (Decidable (∀ e ∈ _, ∀ m ∈ _, _ → _ ∧ ∀ e' ∈ _, ∀ m' ∈ _, _ → _ → _))

instance (s : Registry) : Decidable (AddsOpen s) :=
  inferInstanceAs (Decidable (∀ e ∈ _, ∀ m ∈ _, _ → _ → _))

instance (s : Registry) : Decidable (Passes s) :=
  decidable_of_iff (_ ∧ ClosesLast s ∧ AddsOpen s ∧ LastUnknown s s.changeHead)
    ⟨fun ⟨a, b, c, d⟩ => ⟨a, b, c, d⟩, fun ⟨a, b, c, d⟩ => ⟨a, b, c, d⟩⟩

def Pc.building : Pc → Bool
  | .build => true
  | _ => false

/-- Events are enabled and disabled before they are deleted and deleted before they are freed, and
    what is queued passes when the loop comes to it. -/
def InOrder (w : Watched) : Step → Prop
  | .update evp _ => w.s.at evp (!·.state.delete) = true
  | .delete evp _ => w.s.at evp (fun _ => true) = true
  | .build => w.s.pc.building = true → Passes w.s
  | _ => True

instance (w : Watched) : (e : Step) → Decidable (InOrder w e)
  | .update _ _ | .delete _ _ => inferInstanceAs (Decidable (_ = _))
  | .build => inferInstanceAs (Decidable (_ → _))
  | .add .. | .opened _ | .change | .monitor _ | .handle => .isTrue trivial

def built (s : Registry) (l rest : List Nat) : Registry :=
  { s with
    mem := fun e =>
      if e ∈ l then (s.mem e).bind fun m => if m.state.delete then none else some m.passed
      else s.mem e
    changeHead := rest
    globalHead := (l.filter fun e => s.at e (!·.state.delete)).reverse ++ s.globalHead
    fds := fun fd => s.fds fd && !l.any fun e => s.at e fun m => m.closefd && decide (m.fd = fd)
    kq := fun key =>
      if key.filter.onFd ∧ l.any (fun e => s.at e fun m => m.closefd && decide (m.fd = key.ident))
      then none else s.kq key }

def batchOf (s : Registry) (l : List Nat) : List Change :=
  l.filterMap fun e => (s.mem e).bind fun m => if m.closefd then none else some (m.change e)

theorem built_none (s : Registry) : built s [] s.changeHead = s := by
  simp [built]

theorem batch_snoc {e : Nat} {m : Event} (l : List Nat) (here : s.mem e = some m) :
    batchOf s (l ++ [e]) = if m.closefd then batchOf s l else batchOf s l ++ [m.change e] := by
  unfold batchOf
  by_cases closes : m.closefd <;> simp [here, closes]

theorem build_event_next {e : Nat} {m : Event} {l rest : List Nat} (new : e ∉ l)
    (here : s.mem e = some m) (fits : (batchOf s (l ++ [e])).length < meventMax) :
    buildEvent ⟨built s l (e :: rest), batchOf s l⟩ e =
      .ok ⟨built s (l ++ [e]) rest, batchOf s (l ++ [e])⟩ := by
  have found : (built s l (e :: rest)).mem e = some m := by simp [built, new, here]
  rw [batch_snoc l here] at fits ⊢
  unfold buildEvent
  rw [found]
  simp only [fits, if_true, Except.ok.injEq, Building.mk.injEq, and_true]
  have memory : update (built s l (e :: rest)).mem e
      (if m.state.delete then none else some m.passed) = (built s (l ++ [e]) rest).mem := by
    funext x
    by_cases same : x = e
    · subst same
      simp [built, here]
    · simp [built, same]
  have heads : (if m.state.delete then (built s l (e :: rest)).globalHead
      else e :: (built s l (e :: rest)).globalHead) = (built s (l ++ [e]) rest).globalHead := by
    by_cases deletes : m.state.delete <;> simp [built, Registry.at, here, deletes]
  have fds : (if m.closefd then update (built s l (e :: rest)).fds m.fd false
      else (built s l (e :: rest)).fds) = (built s (l ++ [e]) rest).fds := by
    funext fd
    by_cases closes : m.closefd
    · by_cases same : fd = m.fd
      · simp [built, Registry.at, here, closes, same]
      · simp [built, Registry.at, here, closes, same, Ne.symm same]
    · simp [built, Registry.at, here, closes]
  have kq : (if m.closefd then (close m.fd (built s l (e :: rest))).kq
      else (built s l (e :: rest)).kq) = (built s (l ++ [e]) rest).kq := by
    funext key
    by_cases closes : m.closefd
    · by_cases same : m.fd = key.ident
      · by_cases onFd : key.filter.onFd
        · simp [built, close, Registry.at, here, closes, same, onFd]
        · simp [built, close, closes, onFd]
      · simp [built, close, Registry.at, here, closes, same, Ne.symm same]
    · simp [built, Registry.at, here, closes]
  rw [show built s (l ++ [e]) rest = { built s l (e :: rest) with
    mem := (built s (l ++ [e]) rest).mem
    globalHead := (built s (l ++ [e]) rest).globalHead
    changeHead := rest
    fds := (built s (l ++ [e]) rest).fds
    kq := (built s (l ++ [e]) rest).kq } from rfl, ← memory, ← heads, ← fds, ← kq]
  have head : (built s l (e :: rest)).changeHead = e :: rest := rfl
  by_cases closes : m.closefd <;> by_cases deletes : m.state.delete <;>
    simp [closes, deletes, close, head]

theorem build_loop (s : Registry) (rest : List Nat) : ∀ l, (l ++ rest).Nodup →
    (∀ e ∈ rest, (s.mem e).isSome) → (batchOf s (l ++ rest)).length < meventMax →
    attempts buildEvent ⟨built s l rest, batchOf s l⟩ rest =
      .ok ⟨built s (l ++ rest) [], batchOf s (l ++ rest)⟩ := by
  induction rest with
  | nil =>
    intro l _ _ _
    rw [append_nil]
    rfl
  | cons e rest ih =>
    intro l nodup live fits
    obtain ⟨m, here⟩ := Option.isSome_iff_exists.mp (live e mem_cons_self)
    have new : e ∉ l := fun member =>
      (List.nodup_append.mp nodup).2.2 e member e mem_cons_self rfl
    rw [append_cons] at nodup fits ⊢
    have short : (batchOf s (l ++ [e])).length < meventMax := by
      refine Nat.lt_of_le_of_lt ?_ fits
      unfold batchOf
      rw [filterMap_append (l := l ++ [e]), length_append]
      exact Nat.le_add_right _ _
    rw [attempts, build_event_next new here short]
    exact ih (l ++ [e]) nodup (fun x member => live x (mem_cons_of_mem e member)) fits

section
variable {fds fds' : Nat → Bool} {k k' K : Key → Option Knote}

/-- A batch that the kernel takes up to the first deletion of what it does not have. -/
inductive Goes (fds : Nat → Bool) : (Key → Option Knote) → List Change → (Key → Option Knote) →
    Prop where
  | nil (k : Key → Option Knote) : Goes fds k [] k
  | cons (k k' K : Key → Option Knote) (ch : Change) (rest : List Change)
      (taken : kevent fds k ch = some k') (later : Goes fds k' rest K) : Goes fds k (ch :: rest) K
  | unknown (k : Key → Option Knote) (ch : Change) (rest : List Change) (absent : k ch.key = none)
      (old : ch.flags.add = false) : Goes fds k (ch :: rest) k

theorem refused {ch : Change} (absent : k ch.key = none) (old : ch.flags.add = false) :
    kevent fds k ch = none := by
  unfold kevent
  rw [absent, old]
  simp

theorem changes_eq {batch : List Change} (goes : Goes fds k batch K) :
    keventChanges fds k batch = K := by
  induction goes with
  | nil k => rfl
  | cons k k' K ch rest taken _ ih =>
    unfold keventChanges
    rw [taken]
    exact ih
  | unknown k ch rest absent old =>
    unfold keventChanges
    rw [refused absent old]

theorem goes_opened {batch : List Change} {fd : Nat} (goes : Goes fds k batch K) :
    Goes (update fds fd true) k batch K := by
  induction goes with
  | nil k => exact .nil k
  | cons k k' K ch rest taken _ ih =>
    refine .cons _ _ _ _ _ ?_ ih
    unfold kevent at taken ⊢
    rw [if_neg]
    · by_cases closed : ch.key.filter.onFd ∧ fds ch.key.ident = false
      · rw [if_pos closed] at taken
        cases taken
      · rwa [if_neg closed] at taken
    · rintro ⟨onFd, closed⟩
      by_cases same : ch.key.ident = fd
      · rw [same, update_self] at closed
        cases closed
      · rw [update_of_ne same] at closed
        rw [if_pos ⟨onFd, closed⟩] at taken
        cases taken
  | unknown k ch rest absent old => exact .unknown k ch rest absent old

def Event.knote (e : Nat) (m : Event) : Option Knote :=
  if m.state.delete then none else some ⟨e, !m.state.disable⟩

structure Queued (K : Key → Option Knote) (e : Nat) (m : Event) : Prop where
  closes : m.closefd = true → m.state.delete = true
  deletes : m.state.delete = true → m.state = evDelete
  deleted : m.state.delete = true → K m.key = none ∨ ∃ b, K m.key = some ⟨e, b⟩
  added : m.state.add = true → K m.key = none
  changed : m.state.add = false → m.state.delete = false →
    (m.state.enable = true ∨ m.state.disable = true) ∧ ∃ b, K m.key = some ⟨e, b⟩
  one : ¬ (m.state.enable = true ∧ m.state.disable = true)

structure Registered (K : Key → Option Knote) (e : Nat) (m : Event) : Prop where
  plain : m.closefd = false ∧ m.state.add = false ∧ m.state.delete = false
  one : ¬ (m.state.enable = true ∧ m.state.disable = true)
  held : K m.key = some ⟨e, !m.state.disable⟩

def Usable (fds : Nat → Bool) (key : Key) : Prop := key.filter.onFd = true → fds key.ident = true

theorem key_filter (m : Event) : m.key.filter = m.type := by
  unfold Event.key
  cases m.type <;> rfl

theorem key_ident {m : Event} (onFd : m.type.onFd = true) : m.key.ident = m.fd := by
  unfold Event.key
  cases type : m.type with
  | read | write => rfl
  | timer | signal => simp [type, EvType.onFd] at onFd

theorem change_taken {e : Nat} {m : Event} (queued : Queued k e m) (usable : Usable fds m.key)
    (known : m.state.delete = true → k m.key ≠ none) :
    kevent fds k (m.change e) = some (update k m.key (m.knote e)) := by
  have opened : ¬ (m.key.filter.onFd ∧ fds m.key.ident = false) := by
    rintro ⟨onFd, closed⟩
    rw [usable onFd] at closed
    cases closed
  unfold kevent Event.change Event.knote
  simp only [if_neg opened]
  by_cases deletes : m.state.delete = true
  · obtain absent | ⟨b, held⟩ := queued.deleted deletes
    · exact absurd absent (known deletes)
    · simp [held, deletes]
  · by_cases adds : m.state.add = true
    · simp [queued.added adds, adds, deletes]
    · rw [Bool.not_eq_true] at adds deletes
      obtain ⟨flag, b, held⟩ := queued.changed adds deletes
      cases disable : m.state.disable with
      | true => simp [held, deletes]
      | false =>
        rw [disable] at flag
        simp [held, deletes, flag.resolve_right Bool.false_ne_true]

theorem queued_congr {e : Nat} {m : Event} (same : k' m.key = k m.key) (queued : Queued k e m) :
    Queued k' e m := by
  refine ⟨queued.closes, queued.deletes, ?_, ?_, ?_, queued.one⟩
  · rw [same]
    exact queued.deleted
  · rw [same]
    exact queued.added
  · rw [same]
    exact queued.changed

structure Ready (s : Registry) (fds : Nat → Bool) (k : Key → Option Knote) (e : Nat) (m : Event) :
    Prop where
  queued : Queued k e m
  closed : m.closefd = true → k m.key = none
  usable : m.closefd = false → (m.state.delete = true → k m.key ≠ none) → Usable fds m.key
  unknown : s.unknown e = true ↔
    m.state.delete = true ∧ m.closefd = false ∧ k m.key = none

def Apart (s : Registry) (e e' : Nat) : Prop :=
  ∀ m m', s.mem e = some m → s.mem e' = some m' → m.key ≠ m'.key

theorem batch_goes (s : Registry) (fds : Nat → Bool) : ∀ (l : List Nat) k, l.Pairwise (Apart s) →
    (∀ e ∈ l, ∃ m, s.mem e = some m ∧ Ready s fds k e m) → LastUnknown s l →
    ∃ K, Goes fds k (batchOf s l) K ∧
      (∀ e ∈ l, ∀ m, s.mem e = some m → K m.key = m.knote e) ∧
      ∀ key, (∀ e ∈ l, ∀ m, s.mem e = some m → m.key ≠ key) → K key = k key := by
  intro l
  induction l with
  | nil =>
    intro k _ _ _
    exact ⟨k, .nil k, fun e member => absurd member not_mem_nil, fun _ _ => rfl⟩
  | cons e rest ih =>
    intro k apart ready last
    obtain ⟨apart_e, apart⟩ := List.pairwise_cons.mp apart
    obtain ⟨m, here, ready_e⟩ := ready e mem_cons_self
    have later := fun e' member => ready e' (mem_cons_of_mem e member)
    have other : ∀ e' ∈ rest, ∀ m', s.mem e' = some m' → m'.key ≠ m.key :=
      fun e' member m' there => (apart_e e' member m m' here there).symm
    by_cases closes : m.closefd = true
    · obtain ⟨K, goes, given, kept⟩ := ih k apart later last.2
      refine ⟨K, ?_, ?_, fun key outside =>
        kept key fun e' member => outside e' (mem_cons_of_mem e member)⟩
      · rw [batchOf, filterMap_cons_none (by simp [here, closes])]
        exact goes
      · intro e' member m' there
        obtain rfl | member := List.mem_cons.mp member
        · cases here.symm.trans there
          rw [kept m.key other, ready_e.closed closes, Event.knote,
            if_pos (ready_e.queued.closes closes)]
        · exact given e' member m' there
    · rw [Bool.not_eq_true] at closes
      have head : batchOf s (e :: rest) = m.change e :: batchOf s rest := by
        rw [batchOf, filterMap_cons_some (b := m.change e) (by simp [here, closes])]
        rfl
      by_cases unknown : m.state.delete = true ∧ k m.key = none
      · have closing := last.1 (ready_e.unknown.mpr ⟨unknown.1, closes, unknown.2⟩)
        refine ⟨k, ?_, ?_, fun _ _ => rfl⟩
        · rw [head]
          refine .unknown k _ _ unknown.2 ?_
          rw [Event.change, ready_e.queued.deletes unknown.1]
          rfl
        · intro e' member m' there
          obtain rfl | member := List.mem_cons.mp member
          · cases here.symm.trans there
            rw [unknown.2, Event.knote, if_pos unknown.1]
          · obtain ⟨m'', there', ready'⟩ := later e' member
            cases there.symm.trans there'
            obtain closed | also := Bool.or_eq_true_iff.mp (closing e' member)
            · rw [Registry.at, there] at closed
              rw [ready'.closed closed, Event.knote, if_pos (ready'.queued.closes closed)]
            · obtain ⟨deletes, -, absent⟩ := ready'.unknown.mp also
              rw [absent, Event.knote, if_pos deletes]
      · have known : m.state.delete = true → k m.key ≠ none := fun deletes absent =>
          unknown ⟨deletes, absent⟩
        have taken := change_taken ready_e.queued (ready_e.usable closes known) known
        have same : ∀ e' ∈ rest, ∀ m', s.mem e' = some m' →
            update k m.key (m.knote e) m'.key = k m'.key :=
          fun e' member m' there => update_of_ne (other e' member m' there) _ _
        obtain ⟨K, goes, given, kept⟩ := ih (update k m.key (m.knote e)) apart (by
          intro e' member
          obtain ⟨m', there, ready'⟩ := later e' member
          have equal := same e' member m' there
          exact ⟨m', there, queued_congr equal ready'.queued, by rw [equal]; exact ready'.closed,
            by rw [equal]; exact ready'.usable, by rw [equal]; exact ready'.unknown⟩) last.2
        refine ⟨K, ?_, ?_, ?_⟩
        · rw [head]
          exact .cons _ _ _ _ _ taken goes
        · intro e' member m' there
          obtain rfl | member := List.mem_cons.mp member
          · cases here.symm.trans there
            rw [kept m.key other, update_self]
          · exact given e' member m' there
        · intro key outside
          rw [kept key fun e' member => outside e' (mem_cons_of_mem e member),
            update_of_ne (outside e mem_cons_self m here).symm]

end

section
variable {K : Key → Option Knote} {e : Nat} {m m' : Event}

def Pending (s : Registry) (K : Key → Option Knote) : Prop :=
  match s.pc with
  | .change batch => Goes s.fds s.kq batch K
  | _ => s.kq = K

def Event.wanted (m : Event) : Option Bool :=
  if m.state.delete then none else some (!m.state.disable)

structure Inv (w : Watched) (K : Key → Option Knote) : Prop where
  listed : Listed w.s
  fresh : ∀ e, w.s.next ≤ e → w.s.mem e = none
  timers : ∀ e m, w.s.mem e = some m → m.type = .timer → m.timid < w.s.timid
  apart : ∀ e e' m m', w.s.mem e = some m → w.s.mem e' = some m' → m.key = m'.key → e = e'
  registered : ∀ e ∈ w.s.globalHead, ∀ m, w.s.mem e = some m → Registered K e m
  queued : ∀ e ∈ w.s.changeHead, ∀ m, w.s.mem e = some m → Queued K e m
  owned : ∀ key kn, K key = some kn → ∃ m, w.s.mem kn.udata = some m ∧ m.key = key
  opened : ∀ key kn, K key = some kn → Usable w.s.fds key
  handled : ∀ events, w.s.pc = .handle events → ∀ e ∈ events, (w.s.mem e).isSome
  wanted : ∀ e, w.wanted e = (w.s.mem e).bind Event.wanted
  pending : Pending w.s K

theorem current_of_inv (inv : Inv w K) : Current w := by
  refine ⟨inv.listed, fun nothing applied key e b => ?_⟩
  have same : w.s.kq = K := by
    have pending := inv.pending
    unfold Pending at pending
    cases pc : w.s.pc with
    | change batch =>
      rw [pc] at applied
      exact absurd applied Bool.false_ne_true
    | build | monitor | handle events =>
      rw [pc] at pending
      exact pending
  have registered : ∀ e m, w.s.mem e = some m → Registered K e m := by
    intro e m here
    refine inv.registered e ?_ m here
    have listed := (inv.listed.live e).mp (by rw [here]; rfl)
    rwa [nothing, append_nil] at listed
  rw [same, inv.wanted e]
  constructor
  · intro held
    obtain ⟨m, here, known⟩ := inv.owned key _ held
    have holds := registered e m here
    rw [← known, holds.held] at held
    cases held
    refine ⟨?_, m, here, known⟩
    rw [here, bind_some, Event.wanted, holds.plain.2.2]
    rfl
  · rintro ⟨wanted, m, here, rfl⟩
    have holds := registered e m here
    rw [here, bind_some, Event.wanted, holds.plain.2.2] at wanted
    rw [holds.held]
    cases wanted
    rfl

theorem mem_change (listed : Listed s) (here : s.mem e = some m) :
    m.cq = true ∧ e ∈ s.changeHead ∧ e ∉ s.globalHead ∨
      m.cq = false ∧ e ∉ s.changeHead ∧ e ∈ s.globalHead := by
  have apart := (List.nodup_append.mp listed.nodup).2.2
  have member := (listed.live e).mp (by rw [here]; rfl)
  by_cases changed : e ∈ s.changeHead
  · exact .inl ⟨(listed.cq e m here).mpr changed, changed,
      fun also => apart e also e changed rfl⟩
  · refine .inr ⟨?_, changed, (List.mem_append.mp member).resolve_right changed⟩
    rw [← Bool.not_eq_true]
    exact mt (listed.cq e m here).mp changed

theorem queue_mem (e : Nat) (m : Event) (s : Registry) :
    (queue e m s).mem = update s.mem e (some { m with cq := true }) := by
  unfold queue
  by_cases cq : m.cq = true
  · cases m
    cases cq
    rfl
  · rw [if_neg cq]

theorem queue_rest (e : Nat) (m : Event) (s : Registry) :
    (queue e m s).next = s.next ∧ (queue e m s).timid = s.timid ∧ (queue e m s).fds = s.fds ∧
      (queue e m s).kq = s.kq ∧ (queue e m s).pc = s.pc := by
  unfold queue
  by_cases cq : m.cq = true
  · rw [if_pos cq]
    exact ⟨rfl, rfl, rfl, rfl, rfl⟩
  · rw [if_neg cq]
    exact ⟨rfl, rfl, rfl, rfl, rfl⟩

theorem queue_lists (listed : Listed s) (here : s.mem e = some m) (same : m'.cq = m.cq) :
    ((queue e m' s).globalHead ++ (queue e m' s).changeHead).Nodup ∧
      (∀ x, x ∈ (queue e m' s).globalHead ↔ x ∈ s.globalHead ∧ x ≠ e) ∧
      (∀ x, x ∈ (queue e m' s).changeHead ↔ x ∈ s.changeHead ∨ x = e) := by
  unfold queue
  rw [same]
  obtain ⟨cq, changed, outside⟩ | ⟨cq, outside, member⟩ := mem_change listed here
  · rw [if_pos cq]
    refine ⟨listed.nodup, fun x => ⟨fun inside => ⟨inside, ?_⟩, And.left⟩, fun x =>
      ⟨.inl, fun either => either.elim id ?_⟩⟩
    · rintro rfl
      exact outside inside
    · rintro rfl
      exact changed
  · rw [cq, if_neg Bool.false_ne_true]
    obtain ⟨first, second, apart⟩ := List.nodup_append.mp listed.nodup
    refine ⟨?_, fun x => ?_, fun x => ?_⟩
    · refine List.nodup_append.mpr ⟨first.erase e, List.nodup_cons.mpr ⟨outside, second⟩, ?_⟩
      intro a inside b also
      obtain rfl | also := List.mem_cons.mp also
      · exact (first.mem_erase_iff.mp inside).1
      · exact apart a (mem_of_mem_erase inside) b also
    · rw [first.mem_erase_iff, and_comm]
    · rw [mem_cons, or_comm]

theorem inv_queue (inv : Inv w K) (here : w.s.mem e = some m)
    (same : m'.fd = m.fd ∧ m'.timid = m.timid ∧ m'.type = m.type ∧ m'.cq = m.cq)
    (queued : Queued K e m') : Inv ⟨queue e m' w.s, update w.wanted e m'.wanted⟩ K := by
  obtain ⟨fd, timid, type, cq⟩ := same
  have mem := queue_mem e m' w.s
  obtain ⟨next, timids, fds, kq, pc⟩ := queue_rest e m' w.s
  obtain ⟨nodup, global, change⟩ := queue_lists inv.listed here cq
  have key : m'.key = m.key := by
    unfold Event.key
    rw [fd, timid, type]
  have self : (queue e m' w.s).mem e = some { m' with cq := true } := by
    rw [mem, update_self]
  have others : ∀ x, x ≠ e → (queue e m' w.s).mem x = w.s.mem x := fun x other => by
    rw [mem, update_of_ne other]
  have old : ∀ x y, (queue e m' w.s).mem x = some y →
      ∃ y', w.s.mem x = some y' ∧ y'.key = y.key ∧ y'.type = y.type ∧ y'.timid = y.timid := by
    intro x y there
    by_cases same : x = e
    · subst same
      rw [self] at there
      cases there
      exact ⟨m, here, key.symm, type.symm, timid.symm⟩
    · rw [others x same] at there
      exact ⟨y, there, rfl, rfl, rfl⟩
  have some_iff : ∀ x, ((queue e m' w.s).mem x).isSome ↔ (w.s.mem x).isSome := by
    intro x
    by_cases same : x = e
    · subst same
      simp [self, here]
    · rw [others x same]
  refine ⟨⟨nodup, fun x => ?_, fun x y there => ?_⟩, fun x above => ?_, fun x y there timer => ?_,
    fun x x' y y' there there' equal => ?_, fun x inside y there => ?_, fun x inside y there => ?_,
    fun k kn held => ?_, fun k kn held => ?_, fun events at_ x inside => ?_, fun x => ?_, ?_⟩
  · rw [some_iff, inv.listed.live, mem_append, mem_append, global, change]
    by_cases same : x = e
    · subst same
      have member := (inv.listed.live x).mp (by rw [here]; rfl)
      simpa using List.mem_append.mp member
    · simp [same]
  · rw [change]
    by_cases same : x = e
    · subst same
      rw [self] at there
      cases there
      simp
    · rw [others x same] at there
      rw [inv.listed.cq x y there]
      simp [same]
  · have none := inv.fresh x (by rwa [next] at above)
    have other : x ≠ e := by
      rintro rfl
      rw [here] at none
      cases none
    rw [others x other, none]
  · obtain ⟨y', there', -, type', timid'⟩ := old x y there
    rw [timids, ← timid']
    exact inv.timers x y' there' (type'.trans timer)
  · obtain ⟨z, before, key₁, -⟩ := old x y there
    obtain ⟨z', before', key₂, -⟩ := old x' y' there'
    exact inv.apart x x' z z' before before' (key₁.trans (equal.trans key₂.symm))
  · obtain ⟨inside, other⟩ := (global x).mp inside
    rw [others x other] at there
    exact inv.registered x inside y there
  · by_cases same : x = e
    · subst same
      rw [self] at there
      cases there
      exact ⟨queued.closes, queued.deletes, queued.deleted, queued.added, queued.changed, queued.one⟩
    · rw [others x same] at there
      exact inv.queued x (((change x).mp inside).resolve_right same) y there
  · obtain ⟨y, there, known⟩ := inv.owned k kn held
    by_cases same : kn.udata = e
    · rw [same] at there ⊢
      cases here.symm.trans there
      exact ⟨_, self, key.trans known⟩
    · exact ⟨y, (others _ same).trans there, known⟩
  · show Usable (queue e m' w.s).fds k
    rw [fds]
    exact inv.opened k kn held
  · rw [some_iff]
    exact inv.handled events (pc ▸ at_) x inside
  · show update w.wanted e m'.wanted x = ((queue e m' w.s).mem x).bind Event.wanted
    by_cases same : x = e
    · subst same
      rw [self, update_self]
      rfl
    · rw [others x same, update_of_ne same]
      exact inv.wanted x
  · have pending := inv.pending
    show Pending (queue e m' w.s) K
    unfold Pending at pending ⊢
    rw [pc, fds, kq]
    exact pending

theorem known_cases (inv : Inv w K) (here : w.s.mem e = some m) :
    K m.key = none ∨ ∃ b, K m.key = some ⟨e, b⟩ := by
  obtain ⟨-, member, -⟩ | ⟨-, -, member⟩ := mem_change inv.listed here
  · have queued := inv.queued e member m here
    by_cases deletes : m.state.delete = true
    · exact queued.deleted deletes
    · by_cases adds : m.state.add = true
      · exact .inl (queued.added adds)
      · rw [Bool.not_eq_true] at adds deletes
        exact .inr (queued.changed adds deletes).2
  · exact .inr ⟨_, (inv.registered e member m here).held⟩

theorem update_inv (inv : Inv w K) {enable : Bool} (here : w.s.mem e = some m)
    (alive : m.state.delete = false) : ∃ w', step w (.update e enable) = .ok w' ∧ Inv w' K := by
  have value : ({ m with state := m.state.updated enable } : Event).wanted = some enable := by
    cases enable <;> simp [Event.wanted, Flags.updated, alive]
  show ∃ w', w.with (meventUpdate e enable w.s) e (some enable) = .ok w' ∧ _
  unfold meventUpdate
  rw [here]
  simp only [alive, Bool.false_eq_true, if_false]
  by_cases same : m.state = m.state.updated enable
  · rw [if_pos same]
    refine ⟨_, rfl, ?_⟩
    have unchanged : update w.wanted e (some enable) = w.wanted := by
      refine update_eq_self_iff.mpr ?_
      rw [inv.wanted e, here, ← value, ← same]
      rfl
    rw [unchanged]
    exact inv
  · rw [if_neg same]
    refine ⟨_, rfl, ?_⟩
    rw [← value]
    refine inv_queue inv here ⟨rfl, rfl, rfl, rfl⟩ ?_
    have flag : (m.state.updated enable).enable = true ∨ (m.state.updated enable).disable = true := by
      cases enable <;> simp [Flags.updated]
    have one : ¬ ((m.state.updated enable).enable = true ∧
        (m.state.updated enable).disable = true) := by
      cases enable <;> simp [Flags.updated]
    have add : (m.state.updated enable).add = m.state.add := by
      cases enable <;> rfl
    have delete : (m.state.updated enable).delete = false := by
      cases enable <;> exact alive
    have never : ∀ {p : Prop}, (m.state.updated enable).delete = true → p := fun deletes => by
      rw [delete] at deletes
      cases deletes
    obtain ⟨-, member, -⟩ | ⟨-, -, member⟩ := mem_change inv.listed here
    · have queued := inv.queued e member m here
      refine ⟨fun closes => ?_, never, never, fun adds => queued.added (add ▸ adds),
        fun adds _ => ⟨flag, (queued.changed (add ▸ adds) alive).2⟩, one⟩
      have deletes := queued.closes closes
      rw [alive] at deletes
      cases deletes
    · have registered := inv.registered e member m here
      refine ⟨fun closes => ?_, never, never, fun adds => ?_,
        fun _ _ => ⟨flag, _, registered.held⟩, one⟩
      · have open_ := registered.plain.1
        rw [show m.closefd = true from closes] at open_
        cases open_
      · have old := registered.plain.2.1
        rw [← add, show (m.state.updated enable).add = true from adds] at old
        cases old

theorem delete_inv (inv : Inv w K) {closefd : Bool} (here : w.s.mem e = some m) :
    ∃ w', step w (.delete e closefd) = .ok w' ∧ Inv w' K := by
  show ∃ w', w.with (meventDeleteEvent e closefd w.s) e none = .ok w' ∧ _
  unfold meventDeleteEvent
  rw [here]
  refine ⟨_, rfl, inv_queue (m := m) inv here ⟨rfl, rfl, rfl, rfl⟩ ?_⟩
  have known := known_cases inv here
  exact ⟨fun _ => rfl, fun _ => rfl, fun _ => known, (fun adds => nomatch adds),
    (fun _ alive => nomatch alive), fun both => absurd both.1 Bool.false_ne_true⟩

theorem new_key (inv : Inv w K) {tfd : Nat} {type : EvType} (free : taken tfd type w.s = false)
    {new : Event} (fd : new.fd = tfd) (kind : new.type = type)
    (timer : type = .timer → new.timid = w.s.timid) (here : w.s.mem e = some m) :
    new.key ≠ m.key := by
  intro same
  have types : m.type = type := by rw [← key_filter m, ← same, key_filter, kind]
  have listed := (inv.listed.live e).mp (by rw [here]; rfl)
  have apart := List.any_eq_false.mp free e listed
  rw [here] at apart
  by_cases tick : type = .timer
  · have old := inv.timers e m here (types.trans tick)
    unfold Event.key at same
    rw [types, kind, tick] at same
    simp only [Key.mk.injEq, and_true] at same
    rw [timer tick] at same
    omega
  · have idents : m.fd = tfd := by
      unfold Event.key at same
      rw [types, kind] at same
      cases type with
      | timer => exact absurd rfl tick
      | read | write | signal =>
        simp only [Key.mk.injEq, and_true] at same
        rw [← same, fd]
    simp [tick, idents, types] at apart

theorem add_inv (inv : Inv w K) (tfd : Int) (type : EvType) (enabled : Bool) :
    ∃ w', step w (.add tfd type enabled) = .ok w' ∧ Inv w' K := by
  refine ⟨_, rfl, ?_⟩
  unfold meventAddState
  by_cases negative : tfd < 0
  · rw [if_pos negative]
    exact inv
  rw [if_neg negative]
  by_cases free : taken tfd.toNat type w.s = true
  · rw [if_pos free]
    exact inv
  rw [if_neg free]
  rw [Bool.not_eq_true] at free
  have none := inv.fresh w.s.next (Nat.le_refl _)
  generalize shape : newEvent tfd.toNat type { evAdd with disable := !enabled } w.s = new
  have state : new.state = ⟨true, false, false, !enabled⟩ := by rw [← shape]; rfl
  have plain : new.cq = true ∧ new.closefd = false := by rw [← shape]; exact ⟨rfl, rfl⟩
  have tick : new.type = .timer → type = .timer ∧ new.timid = w.s.timid := by
    rw [← shape]
    exact fun timer => ⟨timer, if_pos timer⟩
  have fresh_key : ∀ x y, w.s.mem x = some y → new.key ≠ y.key := fun x y there =>
    new_key inv free (by rw [← shape]; rfl) (by rw [← shape]; rfl)
      (fun tick => by rw [← shape]; exact if_pos tick) there
  have not_held : K new.key = .none := by
    cases held : K new.key with
    | none => rfl
    | some kn =>
      obtain ⟨y, there, known⟩ := inv.owned _ kn held
      exact absurd known.symm (fresh_key _ y there)
  have unlisted : w.s.next ∉ w.s.globalHead ++ w.s.changeHead := fun member => by
    have live := (inv.listed.live _).mpr member
    rw [none] at live
    cases live
  rw [mem_append, not_or] at unlisted
  have self : update w.s.mem w.s.next (some new) w.s.next = some new := update_self ..
  have others : ∀ x, x ≠ w.s.next → update w.s.mem w.s.next (some new) x = w.s.mem x :=
    fun x other => update_of_ne other _ _
  have not_next : ∀ x y, w.s.mem x = some y → x ≠ w.s.next := by
    rintro x y there rfl
    rw [none] at there
    cases there
  obtain ⟨first, second, apart⟩ := List.nodup_append.mp inv.listed.nodup
  refine ⟨⟨?_, fun x => ?_, fun x y there => ?_⟩, fun x above => ?_, fun x y there timer => ?_,
    fun x x' y y' there there' equal => ?_, fun x inside y there => ?_, fun x inside y there => ?_,
    fun k kn held => ?_, inv.opened, fun events at_ x inside => ?_, fun x => ?_, inv.pending⟩
  · refine List.nodup_append.mpr ⟨first, List.nodup_cons.mpr ⟨unlisted.2, second⟩, ?_⟩
    intro a inside b also
    obtain rfl | also := List.mem_cons.mp also
    · rintro rfl
      exact unlisted.1 inside
    · exact apart a inside b also
  · show (update w.s.mem w.s.next (some new) x).isSome ↔
      x ∈ w.s.globalHead ++ w.s.next :: w.s.changeHead
    by_cases same : x = w.s.next
    · subst same
      simp
    · rw [others x same, inv.listed.live]
      simp [same]
  · show y.cq = true ↔ x ∈ w.s.next :: w.s.changeHead
    by_cases same : x = w.s.next
    · subst same
      cases self.symm.trans there
      simp [plain]
    · rw [inv.listed.cq x y ((others x same).symm.trans there)]
      simp [same]
  · have other : x ≠ w.s.next := Nat.ne_of_gt above
    exact (others x other).trans (inv.fresh x (Nat.le_of_lt above))
  · show y.timid < if type = .timer then w.s.timid + 1 else w.s.timid
    by_cases same : x = w.s.next
    · subst same
      cases self.symm.trans there
      obtain ⟨kind, number⟩ := tick timer
      rw [if_pos kind, number]
      exact Nat.lt_succ_self _
    · have old := inv.timers x y ((others x same).symm.trans there) timer
      split <;> omega
  · by_cases same : x = w.s.next
    · subst same
      cases self.symm.trans there
      by_cases same' : x' = w.s.next
      · exact same'.symm
      · exact absurd equal (fresh_key x' y' ((others x' same').symm.trans there'))
    · by_cases same' : x' = w.s.next
      · subst same'
        cases self.symm.trans there'
        exact absurd equal.symm (fresh_key x y ((others x same).symm.trans there))
      · exact inv.apart x x' y y' ((others x same).symm.trans there) ((others x' same').symm.trans there')
          equal
  · have other : x ≠ w.s.next := by
      rintro rfl
      exact unlisted.1 inside
    exact inv.registered x inside y ((others x other).symm.trans there)
  · by_cases same : x = w.s.next
    · subst same
      cases self.symm.trans there
      refine ⟨?_, ?_, ?_, fun _ => not_held, ?_, ?_⟩
      all_goals simp [plain, state]
    · exact inv.queued x ((List.mem_cons.mp inside).resolve_left same) y
        ((others x same).symm.trans there)
  · obtain ⟨y, there, known⟩ := inv.owned k kn held
    exact ⟨y, (others _ (not_next _ y there)).trans there, known⟩
  · have old := inv.handled events at_ x inside
    obtain ⟨y, there⟩ := Option.isSome_iff_exists.mp old
    show (update w.s.mem w.s.next (some new) x).isSome
    rw [others x (not_next x y there), there]
    rfl
  · show update w.wanted w.s.next (some enabled) x =
      (update w.s.mem w.s.next (some new) x).bind Event.wanted
    by_cases same : x = w.s.next
    · subst same
      rw [update_self, update_self]
      simp [Event.wanted, state]
    · rw [update_of_ne same, update_of_ne same]
      exact inv.wanted x

theorem closing_iff {fd : Nat} : s.closing fd = true ↔
    ∃ e ∈ s.changeHead, ∃ m, s.mem e = some m ∧ m.closefd = true ∧ m.fd = fd := by
  simp [Registry.closing, Registry.at, Option.any_eq_true]

theorem alive_stays (passes : Passes s) (listed : Listed s) (here : s.mem e = some m)
    (alive : m.state.delete = false) : ¬ (m.key.filter.onFd = true ∧ s.closing m.key.ident = true) := by
  rintro ⟨onFd, closing⟩
  rw [key_filter] at onFd
  rw [key_ident onFd] at closing
  obtain ⟨e', member, m', there, closes, same⟩ := closing_iff.mp closing
  have member_ := (listed.live e).mp (by rw [here]; rfl)
  have deletes := ((passes.closesLast e' member m' there closes).2 e member_ m here onFd same.symm)
  rw [alive] at deletes
  cases deletes

theorem ready_of_queued (inv : Inv w w.s.kq) (passes : Passes w.s) (member : e ∈ w.s.changeHead)
    (here : w.s.mem e = some m) : Ready w.s (built w.s w.s.changeHead []).fds w.s.left e m := by
  have queued := inv.queued e member m here
  have stays := alive_stays passes inv.listed here
  have left_same : ¬ (m.key.filter.onFd = true ∧ w.s.closing m.key.ident = true) →
      w.s.left m.key = w.s.kq m.key := fun other => if_neg other
  have left_cases : w.s.left m.key = none ∨ w.s.left m.key = w.s.kq m.key := by
    unfold Registry.left
    split
    · exact .inl rfl
    · exact .inr rfl
  refine ⟨⟨queued.closes, queued.deletes, fun deletes => ?_, fun adds => ?_, fun old alive => ?_,
    queued.one⟩, fun closes => ?_, fun open_ known onFd => ?_, ?_⟩
  · obtain none | same := left_cases
    · exact .inl none
    · rw [same]
      exact queued.deleted deletes
  · obtain none | same := left_cases
    · exact none
    · rw [same]
      exact queued.added adds
  · rw [left_same (stays alive)]
    exact queued.changed old alive
  · have onFd := (passes.closesLast e member m here closes).1
    refine if_pos ⟨(key_filter m).symm ▸ onFd, ?_⟩
    rw [key_ident onFd]
    exact closing_iff.mpr ⟨e, member, m, here, closes, rfl⟩
  · have other : ¬ (m.key.filter.onFd = true ∧ w.s.closing m.key.ident = true) := by
      by_cases deletes : m.state.delete = true
      · intro both
        exact known deletes (if_pos both)
      · exact stays (Bool.not_eq_true _ ▸ deletes)
    have calm : w.s.closing m.key.ident = false := by
      rw [← Bool.not_eq_true]
      exact fun closing => other ⟨onFd, closing⟩
    have before : w.s.fds m.key.ident = true := by
      by_cases adds : m.state.add = true
      · have onFd' : m.type.onFd = true := key_filter m ▸ onFd
        rw [key_ident onFd']
        exact passes.addsOpen e member m here adds onFd'
      · rw [Bool.not_eq_true] at adds
        cases held : w.s.kq m.key with
        | some kn => exact inv.opened _ kn held onFd
        | none =>
          by_cases deletes : m.state.delete = true
          · exact absurd ((left_same other).trans held) (known deletes)
          · obtain ⟨-, b, also⟩ := queued.changed adds (Bool.not_eq_true _ ▸ deletes)
            rw [held] at also
            cases also
    show (w.s.fds m.key.ident && !w.s.closing m.key.ident) = true
    rw [before, calm]
    rfl
  · simp [Registry.unknown, Registry.at, here, and_assoc]

theorem built_some {x : Nat} {y : Event} (there : (built s s.changeHead []).mem x = some y) :
    ∃ y', s.mem x = some y' ∧ y.key = y'.key ∧ y.type = y'.type ∧ y.timid = y'.timid ∧
      (x ∈ s.changeHead → y'.state.delete = false ∧ y = y'.passed) ∧ (x ∉ s.changeHead → y = y') := by
  unfold built at there
  dsimp only at there
  by_cases queued : x ∈ s.changeHead
  · rw [if_pos queued] at there
    obtain ⟨y', here, value⟩ := Option.bind_eq_some_iff.mp there
    by_cases deletes : y'.state.delete = true
    · rw [if_pos deletes] at value
      cases value
    · rw [if_neg deletes] at value
      cases value
      exact ⟨y', here, rfl, rfl, rfl, fun _ => ⟨Bool.not_eq_true _ ▸ deletes, rfl⟩,
        fun other => absurd queued other⟩
  · rw [if_neg queued] at there
    exact ⟨y, there, rfl, rfl, rfl, fun member => absurd member queued, fun _ => rfl⟩

theorem built_listed (listed : Listed s) : Listed (built s s.changeHead []) := by
  obtain ⟨first, second, apart⟩ := List.nodup_append.mp listed.nodup
  have global : ∀ x, x ∈ (built s s.changeHead []).globalHead ↔
      (x ∈ s.changeHead ∧ s.at x (!·.state.delete) = true) ∨ x ∈ s.globalHead := by
    intro x
    simp [built]
  refine ⟨?_, fun x => ?_, fun x y there => ?_⟩
  · rw [show (built s s.changeHead []).changeHead = [] from rfl, append_nil]
    refine List.nodup_append.mpr ⟨(List.nodup_reverse.mpr (second.filter _)), first, ?_⟩
    intro a inside b also same
    rw [mem_reverse, mem_filter] at inside
    exact apart b also a inside.1 same.symm
  · rw [show (built s s.changeHead []).changeHead = [] from rfl, append_nil, global]
    by_cases queued : x ∈ s.changeHead
    · have outside : x ∉ s.globalHead := fun member => apart x member x queued rfl
      have live := (listed.live x).mpr (mem_append_right _ queued)
      obtain ⟨m, here⟩ := Option.isSome_iff_exists.mp live
      by_cases deletes : m.state.delete = true <;>
        simp [built, queued, here, outside, Registry.at, deletes]
    · have same : (built s s.changeHead []).mem x = s.mem x := if_neg queued
      rw [same, listed.live]
      simp [queued]
  · refine ⟨fun cq => ?_, fun never => absurd never not_mem_nil⟩
    obtain ⟨y', here, -, -, -, passed, kept⟩ := built_some there
    by_cases queued : x ∈ s.changeHead
    · rw [(passed queued).2] at cq
      cases cq
    · rw [kept queued] at cq
      exact absurd ((listed.cq x y' here).mp cq) queued

theorem built_listed_pc (listed : Listed s) (pc : Pc) :
    Listed { built s s.changeHead [] with pc := pc } :=
  let ⟨nodup, live, cq⟩ := built_listed listed
  ⟨nodup, live, cq⟩

theorem build_inv (inv : Inv w K) (at_ : w.s.pc = .build) (passes : Passes w.s) :
    ∃ s' K', meventBuild w.s = .ok s' ∧ Inv ⟨s', w.wanted⟩ K' := by
  obtain rfl : w.s.kq = K := by
    have pending := inv.pending
    unfold Pending at pending
    rwa [at_] at pending
  obtain ⟨-, nodup, separate⟩ := List.nodup_append.mp inv.listed.nodup
  have live : ∀ e ∈ w.s.changeHead, ∃ m, w.s.mem e = some m := fun e member =>
    Option.isSome_iff_exists.mp ((inv.listed.live e).mpr (mem_append_right _ member))
  have apart : w.s.changeHead.Pairwise (Apart w.s) := by
    refine nodup.imp_of_mem fun {e e'} member member' other m m' here there same => ?_
    exact other (inv.apart e e' m m' here there same)
  have ready : ∀ e ∈ w.s.changeHead, ∃ m, w.s.mem e = some m ∧
      Ready w.s (built w.s w.s.changeHead []).fds w.s.left e m := fun e member => by
    obtain ⟨m, here⟩ := live e member
    exact ⟨m, here, ready_of_queued inv passes member here⟩
  obtain ⟨K, goes, given, kept⟩ := batch_goes w.s _ _ _ apart ready passes.lastUnknown
  have short : (batchOf w.s w.s.changeHead).length < meventMax := by
    refine Nat.lt_of_le_of_lt (Nat.le_of_eq ?_) passes.fits
    unfold batchOf
    rw [← countP_eq_length_filter, length_filterMap_eq_countP]
    refine countP_congr fun e member => ?_
    obtain ⟨m, here⟩ := live e member
    cases closes : m.closefd <;> simp [here, Registry.at, closes]
  have loop : attempts buildEvent ⟨w.s, []⟩ w.s.changeHead =
      .ok ⟨built w.s w.s.changeHead [], batchOf w.s w.s.changeHead⟩ := by
    have ran := build_loop w.s w.s.changeHead [] nodup (fun e member =>
      (inv.listed.live e).mpr (mem_append_right _ member)) short
    rwa [built_none] at ran
  have outcome : meventBuild w.s = .ok { built w.s w.s.changeHead [] with
      pc := if batchOf w.s w.s.changeHead = [] then .monitor
        else .change (batchOf w.s w.s.changeHead) } := by
    unfold meventBuild
    rw [loop]
  refine ⟨_, K, outcome, ?_⟩
  have shape := @built_some w.s
  have own_key : ∀ key, (∀ e ∈ w.s.changeHead, ∀ m, w.s.mem e = some m → m.key ≠ key) →
      ∀ kn, K key = some kn → w.s.kq key = some kn ∧
        ¬ (key.filter.onFd = true ∧ w.s.closing key.ident = true) := by
    intro key outside kn held
    have left := kept key outside ▸ held
    unfold Registry.left at left
    split at left
    · cases left
    · exact ⟨left, ‹_›⟩
  have passed_on : ∀ e m, w.s.mem e = some m → e ∈ w.s.changeHead → ∀ kn, K m.key = some kn →
      m.state.delete = false ∧ kn = ⟨e, !m.state.disable⟩ := by
    intro e m here member kn held
    rw [given e member m here] at held
    unfold Event.knote at held
    by_cases deletes : m.state.delete = true
    · rw [if_pos deletes] at held
      cases held
    · rw [if_neg deletes] at held
      cases held
      exact ⟨Bool.not_eq_true _ ▸ deletes, rfl⟩
  refine ⟨built_listed_pc inv.listed _, fun x above => ?_, fun x y there timer => ?_,
    fun x x' y y' there there' equal => ?_, fun x inside y there => ?_,
    fun x never => absurd never not_mem_nil, fun key kn held => ?_, fun key kn held => ?_,
    fun events never => ?_, fun x => ?_, ?_⟩
  · have none := inv.fresh x above
    show (if x ∈ w.s.changeHead then (w.s.mem x).bind _ else w.s.mem x) = .none
    rw [none]
    exact ite_self _
  · obtain ⟨z, here, -, type, timid, -⟩ := shape there
    rw [timid]
    exact inv.timers x z here (type ▸ timer)
  · obtain ⟨z, here, known, -⟩ := shape there
    obtain ⟨z', here', known', -⟩ := shape there'
    exact inv.apart x x' z z' here here' (known.symm.trans (equal.trans known'))
  · obtain ⟨z, here, known, -, -, passed, same⟩ := shape there
    by_cases member : x ∈ w.s.changeHead
    · obtain ⟨alive, rfl⟩ := passed member
      have queued := inv.queued x member z here
      have open_ : z.closefd = false := by
        rw [← Bool.not_eq_true]
        intro closes
        have deletes := queued.closes closes
        rw [alive] at deletes
        cases deletes
      refine ⟨⟨open_, rfl, alive⟩, queued.one, ?_⟩
      rw [known, given x member z here, Event.knote, alive]
      rfl
    · obtain rfl := same member
      have listed := List.mem_append.mp ((inv.listed.live x).mp (by rw [here]; rfl))
      have registered := inv.registered x (listed.resolve_right member) y here
      refine ⟨registered.plain, registered.one, ?_⟩
      have other : ∀ e ∈ w.s.changeHead, ∀ m, w.s.mem e = some m → m.key ≠ y.key := by
        intro e inside m there equal
        exact member (inv.apart e x m y there here equal ▸ inside)
      rw [kept y.key other, ← registered.held]
      exact if_neg (alive_stays passes inv.listed here registered.plain.2.2)
  · by_cases queued : ∃ e ∈ w.s.changeHead, ∃ m, w.s.mem e = some m ∧ m.key = key
    · obtain ⟨e, member, m, here, rfl⟩ := queued
      obtain ⟨alive, rfl⟩ := passed_on e m here member kn held
      refine ⟨m.passed, ?_, rfl⟩
      show (if e ∈ w.s.changeHead then (w.s.mem e).bind _ else w.s.mem e) = _
      rw [if_pos member, here, bind_some, alive]
      rfl
    · have outside : ∀ e ∈ w.s.changeHead, ∀ m, w.s.mem e = some m → m.key ≠ key :=
        fun e member m here equal => queued ⟨e, member, m, here, equal⟩
      obtain ⟨y, here, known⟩ := inv.owned key kn (own_key key outside kn held).1
      refine ⟨y, ?_, known⟩
      exact (if_neg fun member => outside _ member y here known).trans here
  · by_cases queued : ∃ e ∈ w.s.changeHead, ∃ m, w.s.mem e = some m ∧ m.key = key
    · obtain ⟨e, member, m, here, rfl⟩ := queued
      obtain ⟨alive, -⟩ := passed_on e m here member kn held
      have ready := ready_of_queued inv passes member here
      refine ready.usable ?_ fun deletes => ?_
      · rw [← Bool.not_eq_true]
        intro closes
        have deletes := ready.queued.closes closes
        rw [alive] at deletes
        cases deletes
      · rw [alive] at deletes
        cases deletes
    · have outside : ∀ e ∈ w.s.changeHead, ∀ m, w.s.mem e = some m → m.key ≠ key :=
        fun e member m here equal => queued ⟨e, member, m, here, equal⟩
      obtain ⟨before, other⟩ := own_key key outside kn held
      intro onFd
      have calm : w.s.closing key.ident = false := by
        rw [← Bool.not_eq_true]
        exact fun closing => other ⟨onFd, closing⟩
      show (w.s.fds key.ident && !w.s.closing key.ident) = true
      rw [inv.opened key kn before onFd, calm]
      rfl
  · dsimp only at never
    split at never <;> cases never
  · refine (inv.wanted x).trans ?_
    show _ = (if x ∈ w.s.changeHead then (w.s.mem x).bind _ else w.s.mem x).bind Event.wanted
    split
    · cases here : w.s.mem x with
      | none => rfl
      | some m =>
        rw [bind_some, bind_some, Event.wanted]
        by_cases deletes : m.state.delete = true
        · rw [if_pos deletes, if_pos deletes]
          rfl
        · rw [if_neg deletes, if_neg deletes, bind_some, Event.wanted]
          rw [show m.passed.state.delete = m.state.delete from rfl, if_neg deletes]
          rfl
    · rfl
  · unfold Pending
    by_cases nothing : batchOf w.s w.s.changeHead = []
    · simp only [nothing, if_true]
      rw [nothing] at goes
      cases goes
      rfl
    · simp only [nothing, if_false]
      exact goes

theorem build_step (inv : Inv w K) (order : InOrder w .build) :
    ∃ w' K', step w .build = .ok w' ∧ Inv w' K' := by
  unfold step loopStep
  cases at_ : w.s.pc with
  | build =>
    have building : w.s.pc.building = true := by rw [at_]; rfl
    obtain ⟨s', K', done, kept⟩ := build_inv inv at_ (order building)
    refine ⟨⟨s', w.wanted⟩, K', ?_, kept⟩
    simp only [done]
  | change | monitor | handle => exact ⟨w, K, rfl, inv⟩

theorem inv_of_rest (inv : Inv w K) {fds : Nat → Bool} {kq : Key → Option Knote} {pc : Pc}
    (grown : ∀ fd, w.s.fds fd = true → fds fd = true)
    (handled : ∀ events, pc = .handle events → ∀ e ∈ events, (w.s.mem e).isSome)
    (pending : Pending { w.s with fds := fds, kq := kq, pc := pc } K) :
    Inv ⟨{ w.s with fds := fds, kq := kq, pc := pc }, w.wanted⟩ K where
  listed := ⟨inv.listed.nodup, inv.listed.live, inv.listed.cq⟩
  fresh := inv.fresh
  timers := inv.timers
  apart := inv.apart
  registered := inv.registered
  queued := inv.queued
  owned := inv.owned
  opened := fun key kn held onFd => grown key.ident (inv.opened key kn held onFd)
  handled := handled
  wanted := inv.wanted
  pending := pending

theorem opened_inv (inv : Inv w K) (fd : Nat) : ∃ w', step w (.opened fd) = .ok w' ∧ Inv w' K := by
  refine ⟨_, rfl, inv_of_rest inv (fun other was => ?_) inv.handled ?_⟩
  · by_cases same : other = fd
    · rw [same, update_self]
    · rwa [update_of_ne same]
  · have pending := inv.pending
    unfold Pending at pending ⊢
    cases pc : w.s.pc with
    | change batch =>
      rw [pc] at pending
      exact goes_opened pending
    | build | monitor | handle =>
      rw [pc] at pending
      exact pending

theorem change_step (inv : Inv w K) : ∃ w', step w .change = .ok w' ∧ Inv w' K := by
  unfold step loopStep
  cases at_ : w.s.pc with
  | change batch =>
    have pending := inv.pending
    unfold Pending at pending
    rw [at_] at pending
    exact ⟨_, rfl, inv_of_rest inv (fun _ was => was) (fun _ never => nomatch never)
      (changes_eq pending)⟩
  | build | monitor | handle => exact ⟨w, rfl, inv⟩

theorem reported_live (inv : Inv w w.s.kq) {keys : List Key} (e : Nat)
    (member : e ∈ reported w.s.kq keys) : (w.s.mem e).isSome := by
  obtain ⟨key, -, found⟩ := List.mem_filterMap.mp (mem_of_mem_take member)
  obtain ⟨kn, held, value⟩ := Option.bind_eq_some_iff.mp found
  obtain ⟨m, here, -⟩ := inv.owned key kn held
  split at value
  · cases value
    rw [here]
    rfl
  · cases value

theorem monitor_step (inv : Inv w K) (keys : List Key) :
    ∃ w', step w (.monitor keys) = .ok w' ∧ Inv w' K := by
  unfold step loopStep
  cases at_ : w.s.pc with
  | monitor =>
    have pending := inv.pending
    unfold Pending at pending
    rw [at_] at pending
    subst pending
    refine ⟨_, rfl, inv_of_rest inv (fun _ was => was) (fun events same e member => ?_) rfl⟩
    cases same
    exact reported_live inv e member
  | build | change | handle => exact ⟨w, rfl, inv⟩

theorem handle_step (inv : Inv w K) : ∃ w', step w .handle = .ok w' ∧ Inv w' K := by
  unfold step loopStep
  cases at_ : w.s.pc with
  | handle events =>
    have pending := inv.pending
    unfold Pending at pending
    rw [at_] at pending
    cases events with
    | nil =>
      exact ⟨_, rfl, inv_of_rest inv (fun _ was => was) (fun _ never => nomatch never) pending⟩
    | cons e rest =>
      have live := inv.handled _ at_
      obtain ⟨m, here⟩ := Option.isSome_iff_exists.mp (live e mem_cons_self)
      simp only [here]
      refine ⟨_, rfl, inv_of_rest inv (fun _ was => was) (fun events same e' member => ?_) pending⟩
      cases same
      exact live e' (mem_cons_of_mem e member)
  | build | change | monitor => exact ⟨w, rfl, inv⟩

theorem step_inv (w : Watched) (e : Step) (inv : ∃ K, Inv w K) (order : InOrder w e) :
    ∃ w', step w e = .ok w' ∧ ∃ K, Inv w' K := by
  obtain ⟨K, inv⟩ := inv
  have same : ∀ {w'}, step w e = .ok w' ∧ Inv w' K → ∃ w', step w e = .ok w' ∧ ∃ K, Inv w' K :=
    fun {w'} both => ⟨w', both.1, K, both.2⟩
  cases e with
  | add tfd type enabled => exact (add_inv inv tfd type enabled).elim fun _ => same
  | update evp enable =>
    obtain ⟨m, here, alive⟩ := (Option.any_eq_true _ _).mp order
    exact (update_inv inv here (by simpa using alive)).elim fun _ => same
  | delete evp closefd =>
    obtain ⟨m, here, -⟩ := (Option.any_eq_true _ _).mp order
    exact (delete_inv inv here).elim fun _ => same
  | opened fd => exact (opened_inv inv fd).elim fun _ => same
  | build =>
    obtain ⟨w', K', done, kept⟩ := build_step inv order
    exact ⟨w', done, K', kept⟩
  | change => exact (change_step inv).elim fun _ => same
  | monitor keys => exact (monitor_step inv keys).elim fun _ => same
  | handle => exact (handle_step inv).elim fun _ => same

theorem start_inv (fds : Nat → Bool) : Inv (.start fds) fun _ => none where
  listed := ⟨nodup_nil, fun _ => ⟨fun never => (nomatch never), fun never => nomatch never⟩,
    fun _ _ never => nomatch never⟩
  fresh := fun _ _ => rfl
  timers := fun _ _ never => nomatch never
  apart := fun _ _ _ _ never => nomatch never
  registered := fun _ never => nomatch never
  queued := fun _ never => nomatch never
  owned := fun _ _ never => nomatch never
  opened := fun _ _ never => nomatch never
  handled := fun _ never => nomatch never
  wanted := fun _ => rfl
  pending := rfl

end

/-- Runs in order use no freed event and fail no assertion, and in every state that they come to the
    lists are in order and the kernel queue is what was asked for. -/
theorem registry_kept (fds : Nat → Bool) (steps : List Step)
    (order : AlongAttempts step InOrder (.start fds) steps) :
    ∃ w, attempts step (.start fds) steps = .ok w ∧ Current w := by
  obtain ⟨w, ran, K, inv⟩ := attempts_succeed step_inv steps _ ⟨_, start_inv fds⟩ order
  exact ⟨w, ran, current_of_inv inv⟩

theorem registry_kept_reader_and_timer : ∃ w, attempts step
      (.start fun fd => decide (fd = 3)) [.add 3 .read false, .add 100 .timer true, .build, .change,
        .update 0 true, .delete 1 false, .monitor [⟨43, .timer⟩], .handle, .handle, .build,
        .change] = .ok w ∧ Current w :=
  registry_kept _ _ (by decide)

theorem deletion_of_new_timer_loses_reader : ∃ w, attempts step (.start fun fd => decide (fd = 3))
      [.add 3 .read true, .add 100 .timer true, .delete 1 false, .build, .change] = .ok w ∧
    ¬ Current w := by
  refine ⟨_, rfl, fun kept => ?_⟩
  have wanted := (kept.synced rfl rfl ⟨3, .read⟩ 0 true).mpr ⟨rfl, _, rfl, rfl⟩
  revert wanted
  decide
end Mevent
