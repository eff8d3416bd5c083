import Bhyve.Ahci.Outcomes

namespace AhciTrim
open Ahci Fallible List

attribute [local instance] decidableOpcode

/-- How a request ends. A port that stops cancels it, and it has no callback then. -/
inductive End where
  | done | failed | cancelled
deriving DecidableEq

/-- What the end of a request finds: the memory of the guest with prdtl, the request that is free,
    and which end it is. -/
structure Moment where
  guest : Guest
  prdtl : Nat
  free : AhciIoreq
  how : End

/-- What a command does: it deletes a range, goes on with a read or a write, or is completed. -/
inductive Event where
  | deleted (offset length : Int)
  | transfer
  | completed

/-- The offsets at which buf has been read for entries, and what the command has done. -/
structure Trace where
  reads : List Nat
  events : List Event

def Trace.put (t : Trace) (e : Event) : Trace := { t with events := t.events ++ [e] }

inductive Next where
  | request (delete : Bool) (aior : AhciIoreq)
  | ended
  | crashed (fault : Fault)

/-- The slot of a command with its table, and what is behind the port. -/
structure Target where
  disk : Disk
  atapi : Bool
  slot : Nat
  table : Nat

def trimReads (buf : Nat → BitVec 8) (len : BitVec 32) : Nat → BitVec 32 → List Nat
  | 0, _ => []
  | fuel + 1, done =>
      done.toNat ::
        if trimLen buf done.toNat ≠ 0 ∨ len ≤ done + 8 then [] else trimReads buf len fuel (done + 8)

def TrimAccepted (b : Cfis) : Prop :=
  (b 2 = ataDataSetManagement ∧ b 11 = 0 ∧ b 3 = ataDsmTrim ∧ b 13 = 0 ∧ b 12 = 1) ∨
    (b 2 = ataSendFpdmaQueued ∧ b 13 &&& 0x1f = ataSfpdmaDsm ∧ b 17 = 0 ∧ b 16 = ataDsmTrim ∧
      b 11 = 0 ∧ b 3 = 1)

section
variable (s : Target)

def Moment.command (m : Moment) : Command := ⟨s.slot, s.table, readCfis m.guest s.table, m.prdtl⟩

variable (m : Moment)

def handleDsmTrim (done : BitVec 32) (t : Trace) : Trace × Next :=
  let c := m.command s
  match readPrdt m.guest c with
  | .error fault => (t, .crashed fault)
  | .ok buf =>
      let t := { t with reads := t.reads ++ trimReads buf (trimBytes c.cfis) trimPlaces done }
      match trimScan buf (trimBytes c.cfis) trimPlaces done with
      | .error fault => (t, .crashed fault)
      | .ok none => (t.put .completed, .ended)
      | .ok (some (elba, elen, next)) =>
          (t, .request true { m.free with
            cfis := s.table
            slot := s.slot
            len := trimBytes c.cfis
            done := next
            more := decide (trimBytes c.cfis ≠ next)
            brOffset := elba * s.disk.sectsz.setWidth 64
            brResid := (elen * s.disk.sectsz).setWidth 64 })

def transfer (m : Moment) (aior : AhciIoreq) (t : Trace) : Trace × Next :=
  match ahciBuildIov m.guest s.disk { aior with cfis := s.table, slot := s.slot }
      (prdtEntries m.guest s.table m.prdtl) with
  | .error fault => (t.put .transfer, .crashed fault)
  | .ok aior => (t.put .transfer, .request false aior)

def handleRw (done : BitVec 32) (t : Trace) : Trace × Next :=
  let b := (m.command s).cfis
  transfer s m { m.free with
    len := (rwRange b).2.1 * s.disk.sectsz
    done := done
    readop := decide (b 2 ∉ ataWrites)
    brOffset := (rwRange b).1 * s.disk.sectsz.setWidth 64 + done.setWidth 64 } t

def handleRead (done : BitVec 32) (t : Trace) : Trace × Next :=
  let c := m.command s
  transfer s m { m.free with
    len := atapiSectors c * 2048
    done := done
    readop := true
    brOffset := (be32dec c.acmd 2).setWidth 64 * 2048 + done.setWidth 64 }
    (if atapiSectors c = 0 then t.put .completed else t)

def takeUp (done : BitVec 32) (t : Trace) : Trace × Next :=
  if isDsm (m.command s).cfis then handleDsmTrim s m done t else handleRw s m done t

/-- An ATAPI port takes every command up again as a read. -/
def resume (done : BitVec 32) (t : Trace) : Trace × Next :=
  if s.atapi then handleRead s m done t else takeUp s m done t

def begin (m : Moment) : Trace × Next :=
  if (m.command s).cfis 2 = ataPacketCmd then handleRead s m 0 ⟨[], []⟩ else takeUp s m 0 ⟨[], []⟩

def ioreqCb (delete : Bool) (aior : AhciIoreq) (t : Trace) : Trace × Next :=
  match m.how with
  | .cancelled => (t, .ended)
  | .failed => (t.put .completed, .ended)
  | .done =>
      let t := if delete then t.put (.deleted aior.brOffset.toInt aior.brResid.toInt) else t
      if aior.more then resume s m aior.done t else (t.put .completed, .ended)

def run : List Moment → Trace × Next → Trace × Next
  | m :: rest, (t, .request delete aior) => run rest (ioreqCb s m delete aior t)
  | _, state => state

end

/-- A data command or a TRIM that ahci_handle_cmd has accepted, and all that its requests find. -/
structure Life extends Target where
  first : Moment
  later : List Moment
  accepted : TrimAccepted (readCfis first.guest table) ∨
    readCfis first.guest table 2 ∈ ataTransfers ∨
    (atapi = true ∧ readCfis first.guest table 2 = ataPacketCmd ∧
      (readCfis first.guest table 0x40 = read10 ∨ readCfis first.guest table 0x40 = read12))

section
variable (l : Life)

def Life.cfis (m : Moment) : Cfis := readCfis m.guest l.table

def Life.start : Trace × Next := begin l.toTarget l.first

def Life.finish : Trace × Next := run l.toTarget l.later l.start

/-- A TRIM whose table and list stay as they are, followed up to its end. -/
def Life.Unchanged (buf : Nat → BitVec 8) : Prop :=
  TrimAccepted (l.cfis l.first) ∧ 64 ≤ l.later.length ∧ ∀ m ∈ l.first :: l.later,
    l.cfis m = l.cfis l.first ∧ readPrdt m.guest (m.command l.toTarget) = .ok buf

/-- The places of the entries with a length, from one on. -/
def places (buf : Nat → BitVec 8) (i n : Nat) : List Nat :=
  (List.range' i n).filter fun j => trimLen buf (8 * j) ≠ 0

def Life.offset (buf : Nat → BitVec 8) (j : Nat) : Nat :=
  (trimLba buf (8 * j)).toNat * l.disk.sectsz.toNat

def Life.length (buf : Nat → BitVec 8) (j : Nat) : Nat :=
  (trimLen buf (8 * j)).toNat * l.disk.sectsz.toNat

def Life.ReadsInside : Prop := ∀ d ∈ l.finish.1.reads, d + 8 ≤ 512

/-- The entries with a length are deleted in order and once each, then the command is completed. -/
def Life.ListDeleted (buf : Nat → BitVec 8) : Prop :=
  l.finish.1.events =
    (places buf 0 64).map (fun j => .deleted (l.offset buf j) (l.length buf j)) ++ [.completed]

/-- An entry of the list from done on has a length, or is the last of the length of the table. -/
def Stops (buf : Nat → BitVec 8) (len done : BitVec 32) : Prop :=
  ∃ k, done.toNat + 8 * k + 8 ≤ 512 ∧
    (trimLen buf (done.toNat + 8 * k) ≠ 0 ∨ len.toNat ≤ done.toNat + 8 * k + 8)

/-- Where a table is a TRIM when a disk goes on with the command, the list has a place at which it
    stops. -/
def StopsInside (s : Target) : List Moment → Trace × Next → Prop
  | m :: rest, (t, .request delete aior) =>
      (m.how = .done ∧ aior.more = true ∧ s.atapi = false ∧ isDsm (m.command s).cfis = true →
        ∀ buf, readPrdt m.guest (m.command s) = .ok buf →
          Stops buf (trimBytes (m.command s).cfis) aior.done) ∧
        StopsInside s rest (ioreqCb s m delete aior t)
  | _, _ => True

/-- No deletion fails or is cancelled, an ATAPI port has only the last entry to delete, and the
    products fit an off_t and an unsigned int. -/
def Life.GoesThrough (buf : Nat → BitVec 8) : Prop :=
  (∀ m ∈ l.later.take (places buf 0 64).length, m.how = .done) ∧
    (l.atapi = true → ∀ j ∈ places buf 0 64, j = 63) ∧
    ∀ j ∈ places buf 0 64, l.offset buf j < 2 ^ 63 ∧ l.length buf j < 2 ^ 32

end

section
variable {buf : Nat → BitVec 8} {len done : BitVec 32}

theorem next_place (small : done.toNat + 8 ≤ 512) : (done + 8).toNat = done.toNat + 8 := by
  rw [BitVec.toNat_add, show (8 : BitVec 32).toNat = 8 from rfl]
  omega

theorem reads_stop (fuel : Nat) : ∀ done : BitVec 32, 512 < done.toNat + 8 * (fuel + 1) →
    (∀ d ∈ trimReads buf len (fuel + 1) done, d + 8 ≤ 512) → Stops buf len done := by
  induction fuel with
  | zero =>
    intro done beyond inside
    have here := inside done.toNat mem_cons_self
    omega
  | succ fuel ih =>
    intro done beyond inside
    have here := inside done.toNat mem_cons_self
    by_cases stop : trimLen buf done.toNat ≠ 0 ∨ len ≤ done + 8
    · refine ⟨0, here, stop.imp id fun last => ?_⟩
      rwa [BitVec.le_def, next_place here] at last
    · rw [trimReads, if_neg stop] at inside
      obtain ⟨k, within, stops⟩ := ih (done + 8) (by rw [next_place here]; omega)
        fun d member => inside d (mem_cons_of_mem _ member)
      rw [next_place here, show done.toNat + 8 + 8 * k = done.toNat + 8 * (k + 1) by omega] at within stops
      exact ⟨k + 1, within, stops⟩

theorem stop_reads (k : Nat) : ∀ (fuel : Nat) (done : BitVec 32), done.toNat + 8 * k + 8 ≤ 512 →
    (trimLen buf (done.toNat + 8 * k) ≠ 0 ∨ len.toNat ≤ done.toNat + 8 * k + 8) →
    ∀ d ∈ trimReads buf len fuel done, d + 8 ≤ 512 := by
  induction k with
  | zero =>
    intro fuel done within stops d member
    cases fuel with
    | zero => cases member
    | succ fuel =>
      have stop : trimLen buf done.toNat ≠ 0 ∨ len ≤ done + 8 := by
        rw [BitVec.le_def, next_place within]
        exact stops
      rw [trimReads, if_pos stop, mem_singleton] at member
      rw [member]
      exact within
  | succ k ih =>
    intro fuel done within stops d member
    cases fuel with
    | zero => cases member
    | succ fuel =>
      have here : done.toNat + 8 ≤ 512 := by omega
      rw [trimReads, mem_cons] at member
      split_ifs at member with stop
      · simp only [not_mem_nil, or_false] at member
        rw [member]
        exact here
      · rcases member with rfl | member
        · exact here
        · rw [show done.toNat + 8 * (k + 1) = (done + 8).toNat + 8 * k by
            rw [next_place here]; omega] at within stops
          exact ih fuel (done + 8) within stops d member

theorem reads_inside_iff : (∀ d ∈ trimReads buf len trimPlaces done, d + 8 ≤ 512) ↔
    Stops buf len done := by
  constructor
  · exact reads_stop (trimPlaces - 1) done (by unfold trimPlaces; omega)
  · rintro ⟨k, within, stops⟩
    exact stop_reads k trimPlaces done within stops

end

section
variable {s : Target} {m : Moment} {aior : AhciIoreq} {done : BitVec 32} {t : Trace}

theorem transfer_trace : (transfer s m aior t).1 = t.put .transfer := by
  unfold transfer
  split <;> rfl

theorem handle_read_reads : (handleRead s m done t).1.reads = t.reads := by
  unfold handleRead
  rw [transfer_trace]
  exact (apply_ite Trace.reads _ _ _).trans (ite_self _)

theorem take_up_inside_iff :
    (∀ d ∈ (takeUp s m done t).1.reads, d + 8 ≤ 512) ↔ (∀ d ∈ t.reads, d + 8 ≤ 512) ∧
      (isDsm (m.command s).cfis = true →
        ∀ buf, readPrdt m.guest (m.command s) = .ok buf →
          Stops buf (trimBytes (m.command s).cfis) done) := by
  unfold takeUp
  split_ifs with dsm
  · unfold handleDsmTrim
    dsimp only
    cases read : readPrdt m.guest (m.command s) with
    | error fault => simp
    | ok buf =>
      simp only [dsm, forall_const, Except.ok.injEq, forall_eq']
      rw [← reads_inside_iff, ← forall_mem_append]
      split <;> rfl
  · unfold handleRw
    simp only [dsm, Bool.false_eq_true, false_implies, and_true]
    rw [transfer_trace]
    rfl

theorem callback_inside_iff {delete : Bool} :
    (∀ d ∈ (ioreqCb s m delete aior t).1.reads, d + 8 ≤ 512) ↔
      (∀ d ∈ t.reads, d + 8 ≤ 512) ∧
        (m.how = .done ∧ aior.more = true ∧ s.atapi = false ∧ isDsm (m.command s).cfis = true →
          ∀ buf, readPrdt m.guest (m.command s) = .ok buf →
            Stops buf (trimBytes (m.command s).cfis) aior.done) := by
  have recorded (e : Event) : (if delete then t.put e else t).reads = t.reads := by
    cases delete <;> rfl
  unfold ioreqCb
  cases m.how with
  | cancelled => simp
  | failed => simp [Trace.put]
  | done =>
    dsimp only
    rw [← recorded (.deleted aior.brOffset.toInt aior.brResid.toInt)]
    generalize (if delete then _ else t) = t'
    cases aior.more with
    | false => simp [Trace.put]
    | true =>
      rw [if_pos rfl]
      unfold resume
      cases s.atapi with
      | true => simp [handle_read_reads]
      | false =>
        rw [if_neg nofun, take_up_inside_iff]
        simp

theorem run_inside_iff (later : List Moment) : ∀ state : Trace × Next,
    (∀ d ∈ (run s later state).1.reads, d + 8 ≤ 512) ↔
      (∀ d ∈ state.1.reads, d + 8 ≤ 512) ∧ StopsInside s later state := by
  induction later with
  | nil => intro state; simp [run, StopsInside]
  | cons m rest ih =>
    rintro ⟨t, next⟩
    cases next with
    | ended => simp [run, StopsInside]
    | crashed fault => simp [run, StopsInside]
    | request delete aior =>
      unfold run StopsInside
      rw [ih, callback_inside_iff, and_assoc]

theorem accepted_bytes {b : Cfis} (accepted : TrimAccepted b) :
    isDsm b = true ∧ trimBytes b = 512 := by
  unfold isDsm trimBytes trimNcq
  rcases accepted with ⟨op, -, -, high, low⟩ | ⟨op, sub, -, -, high, low⟩
  · simp [op, high, low, be16dec]
  · rw [op, sub, high, low]
    exact ⟨rfl, rfl⟩

variable {buf : Nat → BitVec 8}

theorem places_succ (i n : Nat) : places buf i (n + 1) =
    if trimLen buf (8 * i) ≠ 0 then i :: places buf (i + 1) n else places buf (i + 1) n := by
  unfold places
  rw [range'_succ, filter_cons]
  simp only [decide_eq_true_eq]

theorem trim_scan_places (n : Nat) : ∀ (i fuel : Nat) (done : BitVec 32), done.toNat = 8 * i →
    i + n + 1 = 64 → n < fuel →
    (places buf i (n + 1) = [] ∧ trimScan buf 512 fuel done = .ok none) ∨
      ∃ j m next, places buf i (n + 1) = j :: places buf (j + 1) m ∧ j + m + 1 = 64 ∧
        next.toNat = 8 * (j + 1) ∧ trimScan buf 512 fuel done =
          .ok (some (trimLba buf (8 * j), trimLen buf (8 * j), next)) := by
  induction n with
  | zero =>
    intro i fuel done here last enough
    obtain ⟨fuel, rfl⟩ : ∃ f, fuel = f + 1 := ⟨fuel - 1, by omega⟩
    have next := @next_place done (by omega)
    have ends : (512 : BitVec 32) ≤ done + 8 := by
      rw [BitVec.le_def, next, show (512 : BitVec 32).toNat = 512 from rfl]
      omega
    rw [places_succ, trimScan, here]
    by_cases entry : trimLen buf (8 * i) ≠ 0
    · rw [if_pos entry, if_pos entry]
      exact .inr ⟨i, 0, done + 8, rfl, last, by omega, rfl⟩
    · rw [if_neg entry, if_neg entry, if_pos ends]
      exact .inl ⟨rfl, rfl⟩
  | succ n ih =>
    intro i fuel done here last enough
    obtain ⟨fuel, rfl⟩ : ∃ f, fuel = f + 1 := ⟨fuel - 1, by omega⟩
    have next := @next_place done (by omega)
    have goes : ¬ (512 : BitVec 32) ≤ done + 8 := by
      rw [BitVec.le_def, next, show (512 : BitVec 32).toNat = 512 from rfl]
      omega
    rw [places_succ, trimScan, here]
    by_cases entry : trimLen buf (8 * i) ≠ 0
    · rw [if_pos entry, if_pos entry]
      exact .inr ⟨i, n + 1, done + 8, rfl, by omega, by omega, rfl⟩
    · rw [if_neg entry, if_neg entry, if_neg goes]
      exact ih (i + 1) fuel (done + 8) (by omega) (by omega) (by omega)

def asked (s : Target) (buf : Nat → BitVec 8) (j : Nat) : BitVec 64 × BitVec 64 :=
  (trimLba buf (8 * j) * s.disk.sectsz.setWidth 64, (trimLen buf (8 * j) * s.disk.sectsz).setWidth 64)

def deletion (s : Target) (buf : Nat → BitVec 8) (j : Nat) : Event :=
  .deleted (asked s buf j).1.toInt (asked s buf j).2.toInt

/-- A table of a TRIM of one list of 512 bytes. -/
def Lists (s : Target) (buf : Nat → BitVec 8) (m : Moment) : Prop :=
  TrimAccepted (m.command s).cfis ∧ readPrdt m.guest (m.command s) = .ok buf

structure Deletes (s : Target) (buf : Nat → BitVec 8) (j behind : Nat) (aior : AhciIoreq) : Prop where
  last : j + behind + 1 = 64
  done : aior.done.toNat = 8 * (j + 1)
  more : aior.more = decide (behind ≠ 0)
  offset : aior.brOffset = (asked s buf j).1
  resid : aior.brResid = (asked s buf j).2

theorem take_up_places (lists : Lists s buf m) {i n : Nat} (here : done.toNat = 8 * i)
    (last : i + n + 1 = 64) : ∃ reads, (places buf i (n + 1) = [] ∧
      takeUp s m done t = (⟨reads, t.events ++ [.completed]⟩, .ended)) ∨
      ∃ j behind aior, places buf i (n + 1) = j :: places buf (j + 1) behind ∧
        Deletes s buf j behind aior ∧ takeUp s m done t = (⟨reads, t.events⟩, .request true aior) := by
  obtain ⟨dsm, bytes⟩ := accepted_bytes lists.1
  unfold takeUp handleDsmTrim
  rw [if_pos dsm]
  dsimp only
  rw [lists.2, bytes]
  dsimp only
  refine ⟨t.reads ++ trimReads buf 512 trimPlaces done, ?_⟩
  rcases @trim_scan_places buf n i trimPlaces done here last (by unfold trimPlaces; omega) with
    ⟨none_left, scans⟩ | ⟨j, behind, next, found, ends, place, scans⟩
  · rw [scans]
    exact .inl ⟨none_left, rfl⟩
  · rw [scans]
    refine .inr ⟨j, behind, _, found, ⟨ends, place, ?_, rfl, rfl⟩, rfl⟩
    refine decide_eq_decide.mpr (not_congr ?_)
    rw [← BitVec.toNat_inj, place, show (512 : BitVec 32).toNat = 512 from rfl]
    omega

def eventsOf (s : Target) (buf : Nat → BitVec 8) : List Moment → List Nat → List Event
  | _, [] => [.completed]
  | [], _ :: _ => []
  | m :: rest, j :: js =>
      match m.how with
      | .done => deletion s buf j :: eventsOf s buf rest js
      | .failed => [.completed]
      | .cancelled => []

theorem run_ended (later : List Moment) : run s later (t, .ended) = (t, .ended) := by
  cases later <;> rfl

theorem run_places (later : List Moment) :
    ∀ (j behind : Nat) (aior : AhciIoreq) (t : Trace), s.atapi = false ∨ behind = 0 →
    (∀ m ∈ later, Lists s buf m) → (places buf (j + 1) behind).length < later.length →
    Deletes s buf j behind aior → (run s later (t, .request true aior)).1.events =
      t.events ++ eventsOf s buf later (j :: places buf (j + 1) behind) := by
  induction later with
  | nil => intro j behind aior t ata lists enough; cases enough
  | cons m rest ih =>
    intro j behind aior t ata lists enough deletes
    unfold run ioreqCb eventsOf
    cases m.how with
    | failed => exact congrArg (fun state : Trace × Next => state.1.events) (run_ended rest)
    | cancelled =>
      refine (congrArg (fun state : Trace × Next => state.1.events) (run_ended rest)).trans ?_
      exact (append_nil _).symm
    | done =>
      dsimp only
      rw [if_pos rfl, deletes.more, deletes.offset, deletes.resid]
      cases behind with
      | zero =>
        rw [if_neg (by decide), run_ended]
        simp [Trace.put, places, eventsOf, deletion]
      | succ n =>
        have here := lists m mem_cons_self
        have later := fun m' member => lists m' (mem_cons_of_mem m member)
        have ata := ata.resolve_right (Nat.succ_ne_zero n)
        have last := deletes.last
        rw [if_pos (by simp), resume, if_neg (by simp [ata])]
        obtain ⟨reads, ⟨none_left, taken⟩ | ⟨j', behind', aior', found, deletes', taken⟩⟩ :=
          @take_up_places s m aior.done (t.put (deletion s buf j)) buf here (j + 1) n deletes.done
            (by omega)
        · rw [show t.put (.deleted (asked s buf j).1.toInt (asked s buf j).2.toInt) =
            t.put (deletion s buf j) from rfl, taken, run_ended, none_left]
          simp [Trace.put, eventsOf]
        · rw [show t.put (.deleted (asked s buf j).1.toInt (asked s buf j).2.toInt) =
            t.put (deletion s buf j) from rfl, taken, found]
          rw [found] at enough
          rw [ih j' behind' aior' _ (.inl ata) later (Nat.lt_of_succ_lt_succ enough) deletes']
          simp [Trace.put]

theorem events_all_iff (js : List Nat) : ∀ later : List Moment, js.length ≤ later.length →
    ((eventsOf s buf later js).length = js.length + 1 ↔
      ∀ m ∈ later.take js.length, m.how = .done) ∧
      ((∀ m ∈ later.take js.length, m.how = .done) →
        eventsOf s buf later js = js.map (deletion s buf) ++ [.completed]) := by
  induction js with
  | nil => intro later _; simp [eventsOf]
  | cons j js ih =>
    intro later enough
    cases later with
    | nil => cases enough
    | cons m rest =>
      obtain ⟨all, same⟩ := ih rest (Nat.le_of_succ_le_succ enough)
      unfold eventsOf
      simp only [length_cons, take_succ_cons, forall_mem_cons]
      cases m.how with
      | done => simpa using ⟨all, same⟩
      | failed => simp
      | cancelled => simp

theorem places_length_le (i n : Nat) : (places buf i n).length ≤ n :=
  Nat.le_trans (length_filter_le _ _) (Nat.le_of_eq length_range')

theorem take_up_kept {e : Event} (member : e ∈ t.events) : e ∈ (takeUp s m done t).1.events := by
  unfold takeUp handleDsmTrim handleRw
  split_ifs
  · dsimp only
    split
    · exact member
    · split
      · exact member
      · exact mem_append_left _ member
      · exact member
  · rw [transfer_trace]
    exact mem_append_left _ member

theorem handle_read_kept {e : Event} (member : e ∈ t.events) :
    e ∈ (handleRead s m done t).1.events := by
  unfold handleRead
  rw [transfer_trace]
  refine mem_append_left _ ?_
  split_ifs
  · exact mem_append_left _ member
  · exact member

theorem callback_kept {delete : Bool} {e : Event} (member : e ∈ t.events) :
    e ∈ (ioreqCb s m delete aior t).1.events := by
  have recorded (e' : Event) : e ∈ (if delete then t.put e' else t).events := by
    cases delete
    · exact member
    · exact mem_append_left _ member
  unfold ioreqCb
  cases m.how with
  | cancelled => exact member
  | failed => exact mem_append_left _ member
  | done =>
    dsimp only
    by_cases more : aior.more = true
    · rw [if_pos more]
      unfold resume
      by_cases atapi : s.atapi = true
      · rw [if_pos atapi]
        exact handle_read_kept (recorded _)
      · rw [if_neg atapi]
        exact take_up_kept (recorded _)
    · rw [if_neg more]
      exact mem_append_left _ (recorded _)

theorem run_kept {e : Event} (later : List Moment) : ∀ state : Trace × Next,
    e ∈ state.1.events → e ∈ (run s later state).1.events := by
  induction later with
  | nil => exact fun _ member => member
  | cons m rest ih =>
    rintro ⟨t, next⟩ member
    cases next with
    | ended => exact member
    | crashed fault => exact member
    | request delete aior => exact ih _ (callback_kept member)

theorem start_inside (l : Life) : ∀ d ∈ l.start.1.reads, d + 8 ≤ 512 := by
  unfold Life.start begin
  split_ifs with packet
  · rw [handle_read_reads]
    exact fun _ => nofun
  refine take_up_inside_iff.mpr ⟨fun _ => nofun, fun dsm buf _ => ?_⟩
  rcases l.accepted with trim | transfer | ⟨-, op, -⟩
  · refine ⟨63, by decide, .inr ?_⟩
    rw [show (l.first.command l.toTarget).cfis = readCfis l.first.guest l.table from rfl,
      (accepted_bytes trim).2]
    exact Nat.le_add_left 512 _
  · have never : ∀ op ∈ ataTransfers, op ≠ ataDataSetManagement ∧ op ≠ ataSendFpdmaQueued := by decide
    obtain ⟨plain, queued⟩ := never _ transfer
    simp [isDsm, Moment.command, plain, queued] at dsm
  · exact absurd op packet

theorem asked_exact_iff (l : Life) (j : Nat) :
    deletion l.toTarget buf j = .deleted (l.offset buf j) (l.length buf j) ↔
      l.offset buf j < 2 ^ 63 ∧ l.length buf j < 2 ^ 32 := by
  have offset : (asked l.toTarget buf j).1.toNat = l.offset buf j % 2 ^ 64 := by
    simp [asked, Life.offset, BitVec.toNat_mul]
  have length : (asked l.toTarget buf j).2.toNat = l.length buf j % 2 ^ 32 := by
    simp only [asked, Life.length, BitVec.toNat_setWidth, BitVec.toNat_mul]
    omega
  rw [deletion, Event.deleted.injEq, BitVec.toInt_eq_toNat_cond, BitVec.toInt_eq_toNat_cond, offset,
    length]
  generalize l.offset buf j = first
  generalize l.length buf j = second
  split <;> split <;> omega

section
variable {l : Life}

theorem unchanged_start (kept : l.Unchanged buf) :
    (∀ m ∈ l.later, Lists l.toTarget buf m) ∧ ∃ reads,
      (places buf 0 64 = [] ∧ l.start = (⟨reads, [.completed]⟩, .ended)) ∨
        ∃ j behind aior, places buf 0 64 = j :: places buf (j + 1) behind ∧
          Deletes l.toTarget buf j behind aior ∧ l.start = (⟨reads, []⟩, .request true aior) := by
  obtain ⟨trim, -, same⟩ := kept
  have lists : ∀ m ∈ l.first :: l.later, Lists l.toTarget buf m := by
    intro m member
    obtain ⟨table, list⟩ := same m member
    refine ⟨?_, list⟩
    rw [show (m.command l.toTarget).cfis = l.cfis m from rfl, table]
    exact trim
  refine ⟨fun m member => lists m (mem_cons_of_mem _ member), ?_⟩
  have apart : (l.first.command l.toTarget).cfis 2 ≠ ataPacketCmd := by
    rcases trim with ⟨op, -⟩ | ⟨op, -⟩
    · rw [show (l.first.command l.toTarget).cfis 2 = _ from op]
      decide
    · rw [show (l.first.command l.toTarget).cfis 2 = _ from op]
      decide
  unfold Life.start begin
  rw [if_neg apart]
  exact take_up_places (n := 63) (lists _ mem_cons_self) rfl rfl

theorem unchanged_finish (kept : l.Unchanged buf)
    (reached : l.atapi = true → ∀ j ∈ places buf 0 64, j = 63) :
    l.finish.1.events = eventsOf l.toTarget buf l.later (places buf 0 64) := by
  obtain ⟨lists, reads, ⟨none_left, started⟩ | ⟨j, behind, aior, found, deletes, started⟩⟩ :=
    unchanged_start kept
  · rw [Life.finish, started, run_ended, none_left, eventsOf]
  · have few := @places_length_le buf (j + 1) behind
    have last := deletes.last
    have long := kept.2.1
    have ata : l.atapi = false ∨ behind = 0 := by
      by_cases atapi : l.atapi = true
      · have place := reached atapi j (found ▸ mem_cons_self)
        exact .inr (by omega)
      · exact .inl (Bool.eq_false_of_not_eq_true atapi)
    rw [Life.finish, started, found, run_places l.later j behind aior _ ata lists (by omega) deletes]
    rfl

theorem atapi_not_deleted (kept : l.Unchanged buf) (atapi : l.atapi = true) {j : Nat}
    (member : j ∈ places buf 0 64) (before : j ≠ 63) : ¬ l.ListDeleted buf := by
  intro deleted
  unfold Life.ListDeleted at deleted
  obtain ⟨-, reads, ⟨none_left, -⟩ | ⟨first, behind, aior, found, deletes, started⟩⟩ :=
    unchanged_start kept
  · rw [none_left] at member
    cases member
  have last := deletes.last
  have more : behind ≠ 0 := by
    rintro rfl
    rw [found, places, range'_zero, filter_nil, mem_singleton] at member
    omega
  have long := kept.2.1
  rw [found] at deleted
  obtain ⟨m, rest, later⟩ := exists_cons_of_length_pos (show 0 < l.later.length by omega)
  unfold Life.finish at deleted
  rw [started, later, run, ioreqCb] at deleted
  cases how : m.how with
  | cancelled =>
    rw [how, run_ended] at deleted
    cases deleted
  | failed =>
    rw [how, run_ended] at deleted
    cases (List.cons.inj deleted).1
  | done =>
    rw [how] at deleted
    dsimp only at deleted
    rw [if_pos rfl, deletes.more, decide_eq_true more, if_pos rfl, resume, if_pos atapi,
      handleRead] at deleted
    have transferred : Event.transfer ∈ ((places buf 0 64).map fun j =>
        Event.deleted (l.offset buf j) (l.length buf j)) ++ [Event.completed] := by
      rw [found, ← deleted]
      refine run_kept rest _ ?_
      rw [transfer_trace]
      exact mem_append_right _ mem_cons_self
    simp at transferred

theorem list_deleted_iff (kept : l.Unchanged buf) : l.ListDeleted buf ↔ l.GoesThrough buf := by
  by_cases reached : l.atapi = true → ∀ j ∈ places buf 0 64, j = 63
  · have enough := Nat.le_trans (@places_length_le buf 0 64) kept.2.1
    obtain ⟨all, same⟩ := @events_all_iff l.toTarget buf (places buf 0 64) l.later enough
    unfold Life.ListDeleted Life.GoesThrough
    rw [unchanged_finish kept reached]
    constructor
    · intro exact_
      have count := congrArg List.length exact_
      rw [length_append, length_map] at count
      have fine := all.mp count
      rw [same fine, List.append_left_inj] at exact_
      exact ⟨fine, reached, fun j member =>
        (asked_exact_iff l j).mp (List.map_inj_left.mp exact_ j member)⟩
    · rintro ⟨fine, -, fits⟩
      rw [same fine, List.append_left_inj]
      exact List.map_inj_left.mpr fun j member => (asked_exact_iff l j).mpr (fits j member)
  · have missed := reached
    push Not at missed
    obtain ⟨atapi, j, member, before⟩ := missed
    exact iff_of_false (atapi_not_deleted kept atapi member before) fun goes => reached goes.2.1

end

/-- A list is deleted exactly where no deletion ends otherwise, an ATAPI port has no entry before the
last and no product wraps, and buf is read inside exactly where the guest leaves a table at which the
reading of the list stops. -/
theorem trim_exact_iff (l : Life) : (l.ReadsInside ∧ ∀ buf, l.Unchanged buf → l.ListDeleted buf) ↔
      (StopsInside l.toTarget l.later l.start ∧ ∀ buf, l.Unchanged buf → l.GoesThrough buf) := by
  refine and_congr ?_ (forall_congr' fun buf => imp_congr_right fun kept => ?_)
  · exact (run_inside_iff _ _).trans (and_iff_right (start_inside l))
  · exact list_deleted_iff kept

def tableOf (count : BitVec 8) : Guest where
  host _ _ := some 1024
  byte i := if i = 2 then 6 else if i = 3 then 1 else if i = 12 then count else
    if i = 0x8c then 7 else if i = 1030 then 1 else 0
  stack _ := 0

def findsTable (count : BitVec 8) : Moment := ⟨tableOf count, 1, ⟨0, 0, 0, 0, false, false, 0, [], 0⟩, .done⟩

def rewritten : Life where
  toTarget := ⟨⟨512, true⟩, false, 0, 0⟩
  first := findsTable 1
  later := [findsTable 2]
  accepted := .inl (.inl (by decide))

theorem read_outside :
    ¬ (rewritten.ReadsInside ∧ ∀ buf, rewritten.Unchanged buf → rewritten.ListDeleted buf) := by
  rintro ⟨inside, -⟩
  obtain ⟨buf, list, zero⟩ : ∃ buf, readPrdt (tableOf 2) ((findsTable 2).command rewritten.toTarget) =
      .ok buf ∧ ∀ i, 8 ≤ i → buf i = 0 := ⟨_, rfl, fun i beyond => if_neg (Nat.not_lt.mpr beyond)⟩
  obtain ⟨k, within, stop⟩ :=
    ((run_inside_iff _ _).mp inside).2.1 ⟨rfl, rfl, rfl, rfl⟩ buf list
  change trimLen buf (8 + 8 * k) ≠ 0 ∨ 1024 ≤ 8 + 8 * k + 8 at stop
  rw [trimLen, zero _ (by omega), zero _ (by omega)] at stop
  rcases stop with length | last
  · exact length rfl
  · omega

section
variable {env : Env} {v v' : PortView} {k : Nat}

def Moment.Free (m : Moment) (p : AhciPort) : Prop := ∃ k rest, p.iofhd = k :: rest ∧ p.ioreq k = m.free

/-- The end of the request k of a command finds a port so. -/
structure Finds (s : Target) (m : Moment) (env : Env) (v : PortView) (k : Nat) : Prop where
  disk : env.disk = s.disk
  guest : env.guest = m.guest
  atapi : v.port.atapi = s.atapi
  queued : k ∈ v.port.queued
  slot : (v.port.ioreq k).slot = s.slot
  table : (v.port.ioreq k).cfis = s.table
  header : ∃ cmdLst, v.port.cmdLst = some cmdLst ∧ (cmdHdr m.guest cmdLst s.slot).1 = m.prdtl
  free : m.Free (releaseIoreq v.port k)

/-- The block device has taken the request that is next, or the command is answered. -/
def GoesOn (env : Env) (slot : Nat) (v' : PortView) : Next → Prop
  | .request _ aior => ∃ k ∈ v'.port.queued, v'.port.ioreq k = aior
  | .ended => ∃ u ok, u.port.notes.getLast? = some (.completed slot ok) ∧
      (goOn env u = .ok v' ∨ u = v')
  | .crashed _ => False

theorem taken_over {slots : Slots} {slot : Nat} {rest : List Nat} {accepts : Prop}
    [Decidable accepts] (taken : v'.port.slots =
      if accepts then (slots.take k rest aior).accept slot else slots.take k rest aior) :
    ∃ k ∈ v'.port.queued, v'.port.ioreq k = aior := by
  have held : v'.port.queued = k :: slots.queued ∧ v'.port.ioreq = Function.update slots.ioreq k aior := by
    split_ifs at taken
    · exact ⟨congrArg Slots.queued taken, congrArg Slots.ioreq taken⟩
    · exact ⟨congrArg Slots.queued taken, congrArg Slots.ioreq taken⟩
  refine ⟨k, ?_, ?_⟩
  · rw [held.1]
    exact mem_cons_self
  · rw [held.2, Function.update_self]

theorem check_stopped_notes (p : AhciPort) : (ahciCheckStopped p).notes = p.notes := by
  unfold ahciCheckStopped
  split_ifs
  · rfl
  · rfl

theorem d2h_answers (u : PortView) (slot : Nat) (cfis : Cfis) (tfd : BitVec 32) :
    ∃ ok, (ahciWriteFisD2h u slot cfis tfd).port.notes.getLast? = some (.completed slot ok) := by
  have notes := congrArg Slots.notes (d2h_slots u slot cfis tfd).1
  rw [show (ahciWriteFisD2h u slot cfis tfd).port.notes = _ from notes]
  split_ifs
  · exact ⟨false, by simp [Slots.fail]⟩
  · exact ⟨true, by simp [Slots.answer]⟩

theorem sdb_answers (u : PortView) (slot : Nat) (cfis : Cfis) (tfd : BitVec 32) :
    ∃ ok, (ahciWriteFisSdb u slot cfis tfd).port.notes.getLast? = some (.completed slot ok) := by
  have notes := congrArg Slots.notes (sdb_slots u slot cfis tfd).1
  rw [show (ahciWriteFisSdb u slot cfis tfd).port.notes = _ from notes]
  split_ifs
  · exact ⟨false, by simp [Slots.fail]⟩
  · exact ⟨true, by simp [Slots.finish]⟩

theorem finish_goes_on {slot : Nat} {u : PortView}
    (answered : ∃ ok, u.port.notes.getLast? = some (.completed slot ok))
    (ran : finishSlot env slot u = .ok v') : GoesOn env slot v' .ended := by
  obtain ⟨ok, last⟩ := answered
  refine ⟨_, ok, ?_, .inl ran⟩
  rw [check_stopped_notes]
  exact last

theorem ata_reply_answers (c : Command) (err : Bool) (u : PortView) :
    ∃ ok, (ataReply c err u).port.notes.getLast? = some (.completed c.slot ok) := by
  unfold ataReply
  dsimp only
  generalize (if err then abortTfd else doneTfd) = tfd
  split_ifs
  · exact sdb_answers u c.slot c.cfis tfd
  · exact d2h_answers u c.slot c.cfis tfd

theorem atapi_reply_answers (c : Command) (err : Bool) (u : PortView) :
    ∃ ok, (atapiReply c err u).port.notes.getLast? = some (.completed c.slot ok) := by
  unfold atapiReply
  split_ifs
  · exact d2h_answers _ _ _ _
  · exact d2h_answers _ _ _ _

theorem transfer_goes_on {a : AhciIoreq} (built : ahciBuildIov m.guest s.disk
      { a with cfis := s.table, slot := s.slot } (prdtEntries m.guest s.table m.prdtl) = .ok aior)
    (taken : ∃ k ∈ v'.port.queued, v'.port.ioreq k = aior) :
    GoesOn env s.slot v' (transfer s m a t).2 := by
  unfold transfer
  rw [built]
  exact taken

theorem pulled_free (free : m.Free v.port) {p : AhciPort} (pulled : pullIoreq v.port = .ok (k, p)) :
    ∃ rest, p = { v.port with iofhd := rest } ∧ p.ioreq k = m.free := by
  obtain ⟨rest, list, left⟩ := pull_ioreq_cases pulled
  obtain ⟨k', rest', list', held⟩ := free
  obtain ⟨rfl, -⟩ := List.cons.inj (list.symm.trans list')
  exact ⟨rest, left, left ▸ held⟩

theorem rw_goes_on (free : m.Free v.port)
    (ran : ahciHandleRw m.guest s.disk (m.command s) done v = .ok v') :
    GoesOn env s.slot v' (handleRw s m done t).2 := by
  obtain ⟨⟨k, p⟩, pulled, ran⟩ := bind_ok_split ran
  obtain ⟨rest, left, held⟩ := pulled_free free pulled
  obtain ⟨aior, built, ran⟩ := bind_ok_split ran
  rw [held] at built
  subst left
  exact transfer_goes_on built (taken_over (handed_over ran).2)

theorem read_goes_on (free : m.Free v.port)
    (ran : atapiRead m.guest s.disk (m.command s) done v = .ok v') :
    GoesOn env s.slot v' (handleRead s m done t).2 := by
  obtain ⟨⟨k, p⟩, pulled, ran⟩ := bind_ok_split ran
  obtain ⟨aior, built, ran⟩ := bind_ok_split ran
  have free : m.Free (if atapiSectors (m.command s) = 0 then (m.command s).succeed v else v).port := by
    split_ifs
    · obtain ⟨slots, -, -⟩ := d2h_slots v s.slot (m.command s).ireason.cfis doneTfd
      obtain ⟨k', rest, list, held⟩ := free
      exact ⟨k', rest, (congrArg Slots.iofhd slots).trans list,
        (congrFun (congrArg Slots.ioreq slots) k').trans held⟩
    · exact free
  obtain ⟨rest, left, held⟩ := pulled_free free pulled
  dsimp only at built ran
  rw [held] at built
  refine transfer_goes_on built ⟨k, ?_, ?_⟩
  · rw [blockif_request_port ran]
    exact mem_cons_self
  · rw [blockif_request_port ran]
    exact Function.update_self _ _ _

theorem trim_goes_on {again : Bool} {u : PortView} (free : m.Free v.port)
    (ran : ahciHandleDsmTrim m.guest s.disk (m.command s) done v = .ok (u, again))
    (after : (if again then goOn env u else .ok u) = .ok v') :
    GoesOn env s.slot v' (handleDsmTrim s m done t).2 := by
  obtain ⟨buf, list, ran⟩ := bind_ok_split ran
  obtain ⟨entry, scans, ran⟩ := bind_ok_split ran
  unfold handleDsmTrim
  dsimp only
  rw [list]
  dsimp only
  rw [scans]
  cases entry with
  | none =>
    obtain ⟨slots, -⟩ := trim_reply_slots (m.command s) v (decide (done = 0))
    cases ran
    refine ⟨_, true, ?_, (ite_split after).imp And.right fun left => Except.ok.inj left.2⟩
    have notes := congrArg Slots.notes slots
    rw [check_stopped_notes, show (clearPending (trimReply (m.command s) (decide (done = 0)) v).port
      (m.command s).slot).notes = _ from notes]
    unfold Slots.endTrim
    split_ifs <;> simp [Slots.settle, Slots.finish, Slots.answer, Moment.command]
  | some found =>
    simp only at ran
    obtain ⟨⟨k, p⟩, pulled, ran⟩ := bind_ok_split ran
    obtain ⟨rest, left, held⟩ := pulled_free free pulled
    obtain ⟨w, taken, ran⟩ := bind_ok_split ran
    cases ran
    cases after
    rw [held] at taken
    subst left
    exact taken_over (handed_over taken).2

theorem trim_dispatched {c : Command} (trim : TrimAccepted c.cfis) {g : Guest} {disk : Disk} :
    dispatchCmd g disk c v = trimFirst g disk c v := by
  unfold dispatchCmd
  rcases trim with ⟨op, rest⟩ | ⟨op, rest⟩
  · rw [op]
    exact if_pos rest
  · rw [op]
    exact if_pos rest

theorem begin_goes_on (l : Life) (free : l.first.Free v.port) (atapi : v.port.atapi = l.atapi)
    (ran : dispatchCmd l.first.guest l.disk (l.first.command l.toTarget) v = .ok v') :
    GoesOn env l.slot v' l.start.2 := by
  have accepted := l.accepted
  rw [show readCfis l.first.guest l.table = (l.first.command l.toTarget).cfis from rfl] at accepted
  unfold Life.start begin
  rcases accepted with trim | transfer | ⟨port, op, packet⟩
  · rw [trim_dispatched trim] at ran
    have plain : (l.first.command l.toTarget).cfis 2 ≠ ataPacketCmd := by
      rcases trim with ⟨op, -⟩ | ⟨op, -⟩
      · exact fun same => absurd (op.symm.trans same) (by decide)
      · exact fun same => absurd (op.symm.trans same) (by decide)
    rw [if_neg plain, takeUp, if_pos (accepted_bytes trim).1]
    unfold trimFirst at ran
    split at ran
    · cases ran
    · next u again trimmed =>
      have first : again = false := by
        obtain ⟨_, _, _, _, none_again⟩ | ⟨_, _, _, _, _, _, _, none_again⟩ := trim_slots trimmed
        · exact none_again
        · exact none_again
      refine trim_goes_on free trimmed ?_
      rw [first]
      exact ran
  · have never : ∀ op ∈ ataTransfers, op ≠ ataAtaIdentify ∧ op ≠ ataSetfeatures ∧ op ≠ ataSetMulti ∧
        op ≠ ataPacketCmd ∧ op ≠ ataDataSetManagement ∧ op ≠ ataSendFpdmaQueued := by decide
    obtain ⟨identify, features, multi, plain, dsm, queued⟩ := never _ transfer
    rw [if_neg plain, takeUp, if_neg (by simp [isDsm, dsm, queued])]
    unfold dispatchCmd at ran
    dsimp only at ran
    rw [if_neg identify, if_neg features, if_neg multi, if_pos transfer] at ran
    exact rw_goes_on free ran
  · have packet_read : handlePacketCmd l.first.guest l.disk (l.first.command l.toTarget) =
        atapiRead l.first.guest l.disk (l.first.command l.toTarget) 0 := by
      have kind : (l.first.command l.toTarget).acmd 0 = read10 ∨
          (l.first.command l.toTarget).acmd 0 = read12 := packet
      unfold handlePacketCmd
      funext u
      rcases kind with kind | kind
      · rw [kind]
        rfl
      · rw [kind]
        rfl
    rw [if_pos op]
    unfold dispatchCmd at ran
    rw [op, packet_read, atapi, port] at ran
    exact read_goes_on free ran

theorem resumed_command (finds : Finds s m env v k) :
    resumed env (releaseIoreq v.port k) (v.port.ioreq k) = .ok (m.command s) := by
  obtain ⟨cmdLst, list, header⟩ := finds.header
  unfold resumed
  rw [show (releaseIoreq v.port k).cmdLst = some cmdLst from list, finds.slot, finds.table, finds.guest]
  dsimp only
  rw [header]
  rfl

theorem atapi_goes_on (finds : Finds s m env v k) (atapi : s.atapi = true) (delete : Bool)
    (met : m.how ≠ .cancelled) (ran : atapiIoreqCb env k (decide (m.how = .failed)) v = .ok v') :
    GoesOn env s.slot v' (ioreqCb s m delete (v.port.ioreq k) t).2 := by
  unfold atapiIoreqCb at ran
  unfold ioreqCb
  dsimp only at ran
  rw [resumed_command finds, finds.slot] at ran
  cases how : m.how with
  | cancelled => exact absurd how met
  | failed =>
    rw [how] at ran
    exact finish_goes_on (atapi_reply_answers _ _ _) ran
  | done =>
    rw [how, if_neg (by decide)] at ran
    dsimp only at ran ⊢
    cases more : (v.port.ioreq k).more with
    | false =>
      rw [more] at ran
      exact finish_goes_on (atapi_reply_answers _ _ _) ran
    | true =>
      rw [more, finds.guest, finds.disk] at ran
      rw [if_pos rfl, resume, if_pos atapi]
      exact read_goes_on finds.free ran

theorem ata_goes_on (finds : Finds s m env v k) (ata : s.atapi = false) (delete : Bool)
    (met : m.how ≠ .cancelled) (ran : ataIoreqCb env k (decide (m.how = .failed)) v = .ok v') :
    GoesOn env s.slot v' (ioreqCb s m delete (v.port.ioreq k) t).2 := by
  unfold ataIoreqCb at ran
  unfold ioreqCb
  dsimp only at ran
  rw [resumed_command finds, finds.slot] at ran
  cases how : m.how with
  | cancelled => exact absurd how met
  | failed =>
    rw [how] at ran
    exact finish_goes_on (ata_reply_answers _ _ _) ran
  | done =>
    rw [how, if_neg (by decide)] at ran
    dsimp only at ran ⊢
    cases more : (v.port.ioreq k).more with
    | false =>
      rw [more] at ran
      exact finish_goes_on (ata_reply_answers _ _ _) ran
    | true =>
      rw [more, if_pos rfl, ataResume, finds.guest, finds.disk] at ran
      rw [if_pos rfl, resume, if_neg (by simp [ata]), takeUp]
      cases dsm : isDsm (m.command s).cfis with
      | false =>
        rw [dsm] at ran
        exact rw_goes_on finds.free ran
      | true =>
        rw [dsm, if_pos rfl] at ran
        rw [if_pos rfl]
        split at ran
        · cases ran
        · next u again trimmed => exact trim_goes_on finds.free trimmed ran

theorem callback_goes_on (finds : Finds s m env v k) (met : m.how ≠ .cancelled) (delete : Bool)
    (ran : Ahci.ioreqCb env k (decide (m.how = .failed)) v = .ok v') :
    GoesOn env s.slot v' (ioreqCb s m delete (v.port.ioreq k) t).2 := by
  unfold Ahci.ioreqCb at ran
  rw [if_pos finds.queued, finds.atapi] at ran
  cases atapi : s.atapi with
  | true =>
    rw [atapi] at ran
    exact atapi_goes_on finds atapi delete met ran
  | false =>
    rw [atapi] at ran
    exact ata_goes_on finds atapi delete met ran

theorem stop_cancels (cancelled : env.cancels k = true) (p : AhciPort) :
    (stopIoreq env p k).queued = p.queued.erase k ∧
      (stopIoreq env p k).notes = p.notes ++ [.cancelled (p.ioreq k).slot] ∧
      (stopIoreq env p k).received = p.received := by
  unfold stopIoreq
  rw [if_pos cancelled]
  cases isNcq (env.guest.byte ((p.ioreq k).cfis + 2)) with
  | true => exact ⟨rfl, rfl, rfl⟩
  | false => exact ⟨rfl, rfl, rfl⟩

end

end
end AhciTrim
