import Bhyve.Nvme.Transfer

/-!
A read or write command that is told to have succeeded has moved exactly the bytes of its blocks;
other commands end before anything is moved.
-/
namespace Nvme
open Placements List

/-- A page, or a part of one: where it is and how many of its bytes are meant. -/
abbrev Page := BitVec 64 × Nat

/-- How the PRP entries end: with the command, at an item that is 0, or where a list is not found. -/
inductive Stop where
  | whole | zeroItem | unlisted
deriving DecidableEq

/-- The pages that PRP entries name up to where they end, and where in the host each item of a list
    is read, with the number of pages before it. -/
structure Walk where
  pages : List Page
  reads : List (Nat × Nat)
  stop : Stop

def Walk.after (pages : List Page) (reads : List (Nat × Nat)) (w : Walk) : Walk :=
  ⟨pages ++ w.pages, reads ++ w.reads, w.stop⟩

def linkRead (list i size before : Nat) : List (Nat × Nat) :=
  if i = prp2Items - 1 ∧ size > pageSize then [(list + 8 * i, before)] else []

def listWalk (map : MapGpa) (mem : Nat → Byte) : Nat → Nat → Nat → Nat → Nat → Walk
  | 0, _, _, _, _ => ⟨[], [], .whole⟩
  | fuel + 1, list, i, size, before =>
      if size = 0 then ⟨[], [], .whole⟩
      else
        match nextList map mem list i size with
        | .error _ => ⟨[], linkRead list i size before, .unlisted⟩
        | .ok (next, j) =>
            let reads := linkRead list i size before ++ [(next + 8 * j, before)]
            if prpItem mem next j = 0 then ⟨[], reads, .zeroItem⟩
            else (listWalk map mem fuel next (j + 1) (size - min size pageSize) (before + 1)).after
              [(prpItem mem next j, min size pageSize)] reads

variable (map : MapGpa) (st : Store) (cmd : RwCommand)

def designated (mem : Nat → Byte) : Walk :=
  let first : Page := (clearLow cmd.prp1, cmd.cpsz st)
  let left := cmd.bytes st - cmd.cpsz st
  if left = 0 then ⟨[first], [], .whole⟩
  else if left ≤ pageSize then ⟨[first, (clearLow cmd.prp2, left)], [], .whole⟩
  else
    match map (clearLow cmd.prp2) pageSize with
    | none => ⟨[first], [], .unlisted⟩
    | some list => (listWalk map mem left list 0 left 1).after [first] []

def hostBytes (pages : List Page) : List Nat :=
  pages.flatMap fun p => Iov.addresses ⟨map p.1 p.2, p.2⟩

def RwCommand.writes (cmd : RwCommand) : Bool := decide (cmd.opc = opcWrite)
def RwCommand.start (st : Store) : Nat := cmd.slba * st.sectsz
def RwCommand.stop (st : Store) : Nat := cmd.start st + cmd.bytes st

/-- So many bytes of the store were moved to or from the addresses, in order and once, and nothing
    else was changed. An address that is there twice has what came to it last. -/
structure Transferred (write : Bool) (start n : Nat) (addresses : List Nat) (d d' : Disk) : Prop where
  inside : start + n ≤ d.length
  count : addresses.length = n
  length : d'.length = d.length
  read : write = false →
    (∀ k a, addresses[k]? = some a → a ∉ addresses.drop (k + 1) → d'.mem a = d.store (start + k)) ∧
    (∀ a, a ∉ addresses → d'.mem a = d.mem a) ∧ d'.store = d.store
  write : write = true →
    (∀ k a, addresses[k]? = some a → d'.store (start + k) = d.mem a) ∧
    (∀ i, i < start ∨ start + n ≤ i → d'.store i = d.store i) ∧ d'.mem = d.mem

/-- A list that does not begin a page ends before the page does. -/
def ListFits (walk : Walk) : Prop :=
  (clearLow cmd.prp2).toNat % pageSize + 8 * min walk.reads.length prp2Items ≤ pageSize

structure TransfersExactly (map : MapGpa) (st : Store) (cmd : RwCommand) (d : Disk) : Prop where
  succeeds : ∀ d', rwCommand map st cmd d = .ok (statusGenc scSuccess, d') →
    let walk := designated map st cmd d.mem
    walk.stop = .whole ∧ ListFits cmd walk ∧
      Transferred cmd.writes (cmd.start st) (cmd.bytes st) (hostBytes map walk.pages) d d'
  beyond : d.length < cmd.stop st →
    ∃ status, rwCommand map st cmd d = .ok (status, d) ∧ status ≠ statusGenc scSuccess
  indexed : rwCommand map st cmd d ≠ .error .outOfBounds

/-- Pages that adjoin make one piece, of which the address and the size of the last page are looked
    up. -/
structure Pieces where
  bases : List (BitVec 64 × Nat)
  start : BitVec 64
  size : Nat

def Pieces.add (s : Pieces) (p : Page) : Pieces :=
  if s.start + BitVec.ofNat 64 s.size = p.1 then
    ⟨s.bases.dropLast ++ [(s.start, p.2)], s.start, s.size + p.2⟩
  else ⟨s.bases ++ [p], p.1, p.2⟩

def pieces (pages : List Page) : Pieces := pages.foldl Pieces.add ⟨[], 0, 0⟩

def AllMapped (pages : List Page) : Prop := ∀ p ∈ pages, map p.1 p.2 ≠ none

def PieceMissing (pages : List Page) : Prop :=
  ∃ b ∈ (pieces pages).bases, map b.1 b.2 = none

/-- The block device is given the pages themselves and not its buffer. -/
def Direct (pages : List Page) : Prop :=
  (pieces pages).bases.length ≤ 1 ∨ st.geom = false

/-- The first access of the block device is refused or fails. -/
def Declined (pages : List Page) : Prop :=
  st.refuses 0 = true ∨ (cmd.writes = true ∧ st.rdonly = true) ∨
    (st.fails 0 (cmd.start st % 2 ^ 64) = true ∧
      (cmd.writes = true → Direct st pages ∨ ¬ PieceMissing map pages))

/-- For a read, an item of a list is read before the bytes of a page come to it. -/
def ItemsKept (walk : Walk) : Prop :=
  ∀ item ∈ walk.reads, AllMapped map (walk.pages.take item.2) →
    ∀ a ∈ hostBytes map (walk.pages.take item.2), a < item.1 ∨ item.1 + 8 ≤ a

/-- The check of a page of a store in memory, which is made modulo 2^64. -/
def Caught (d : Disk) (lba n : Nat) : Prop := d.length < (lba + n) % 2 ^ 64

/-- The first page and the one that follows it are caught, or nothing follows it. -/
def CaughtFirst (d : Disk) : Prop :=
  let left := cmd.bytes st - cmd.cpsz st
  let next := cmd.start st + cmd.cpsz st
  Caught d (cmd.start st) (cmd.cpsz st) ∧ (left = 0 ∨ (left ≤ pageSize ∧ Caught d next left) ∨
    (pageSize < left ∧ ∃ list ∈ map (clearLow cmd.prp2) pageSize,
      prpItem d.mem list 0 = 0 ∨ Caught d next pageSize))

/-- For a store in memory: the command is inside it, or is caught before anything is moved. -/
def RamSound (d : Disk) : Prop :=
  let walk := designated map st cmd d.mem
  (cmd.stop st ≤ d.length ∧ ListFits cmd walk ∧ (cmd.writes = false → ItemsKept map walk)) ∨
    CaughtFirst map st cmd d

/-- What the block device makes of the request of a command whose PRP entries name all pages. -/
def RequestSound (d : Disk) (pages : List Page) : Prop :=
  Declined map st cmd pages ∨ (PieceMissing map pages ∧ (Direct st pages ∨ cmd.stop st ≤ d.length)) ∨
    (AllMapped map pages ∧ cmd.stop st ≤ d.length)

/-- For a block device: the first page is not at address 0, the pages fit into one request, and the
    PRP entries stop, or the request is inside the store or fails before anything is moved. -/
def BlockSound (d : Disk) : Prop :=
  let walk := designated map st cmd d.mem
  clearLow cmd.prp1 ≠ 0 ∧ (pieces walk.pages).bases.length ≤ maxBlockiovs ∧ ListFits cmd walk ∧
    (walk.stop = .unlisted → cmd.stop st ≤ d.length) ∧
    (walk.stop = .whole → RequestSound map st cmd d walk.pages)

def Sound (d : Disk) : Prop :=
  if st.ram then RamSound map st cmd d else BlockSound map st cmd d

/-- How the host maps the guest's memory: at one place, in pieces that end below 2^64. -/
structure Linear (map : MapGpa) (base : Nat) : Prop where
  address : ∀ g n p, map g n = some p → p = base + g.toNat
  below : ∀ g n, map g n ≠ none → g.toNat + n < 2 ^ 64
  shorter : ∀ g n m, map g n ≠ none → m ≤ n → map g m ≠ none
  joined : ∀ g n m, map g n ≠ none → map (g + BitVec.ofNat 64 n) m ≠ none → map g (n + m) ≠ none

section
variable {map : MapGpa} {base : Nat}

theorem host_bytes_append (pages others : List Page) :
    hostBytes map (pages ++ others) = hostBytes map pages ++ hostBytes map others :=
  flatMap_append

theorem host_bytes_page {g : BitVec 64} {n : Nat} (linear : Linear map base)
    (mapped : map g n ≠ none) : hostBytes map [(g, n)] = List.range' (base + g.toNat) n := by
  obtain ⟨p, here⟩ := Option.ne_none_iff_exists'.mp mapped
  rw [← linear.address g n p here]
  simp [hostBytes, Iov.addresses, here]

def total (pages : List Page) : Nat := (pages.map Prod.snd).sum

theorem total_append (pages others : List Page) :
    total (pages ++ others) = total pages + total others := by
  simp [total]

variable {pages : List Page} {mem : Nat → Byte}

theorem host_bytes_length (mapped : AllMapped map pages) :
    (hostBytes map pages).length = total pages := by
  induction pages with
  | nil => rfl
  | cons p rest ih =>
    obtain ⟨a, here⟩ := Option.ne_none_iff_exists'.mp (mapped p mem_cons_self)
    have later := ih fun q member => mapped q (mem_cons_of_mem p member)
    unfold hostBytes total at later ⊢
    simp only [flatMap_cons, length_append, map_cons, sum_cons, later]
    simp [Iov.addresses, here]

theorem pieces_append (pages : List Page) (p : Page) : pieces (pages ++ [p]) = (pieces pages).add p := by
  simp [pieces]

theorem pieces_length_le (done rest : List Page) :
    (pieces done).bases.length ≤ (pieces (done ++ rest)).bases.length := by
  induction rest generalizing done with
  | nil => rw [append_nil]
  | cons p rest ih =>
    have later := ih (done ++ [p])
    rw [List.append_assoc, pieces_append] at later
    refine Nat.le_trans ?_ later
    unfold Pieces.add
    split
    · rw [length_append, length_dropLast, length_singleton]
      omega
    · rw [length_append]
      exact Nat.le_add_right _ _

theorem list_walk_total {fuel : Nat} : ∀ {list i size before : Nat}, size ≤ fuel →
    total (listWalk map mem fuel list i size before).pages ≤ size ∧
      (∀ p ∈ (listWalk map mem fuel list i size before).pages, 0 < p.2) ∧
      ((listWalk map mem fuel list i size before).stop = .whole →
        total (listWalk map mem fuel list i size before).pages = size) := by
  induction fuel with
  | zero =>
    intro list i size before enough
    exact ⟨Nat.zero_le _, nofun, fun _ => (Nat.le_zero.mp enough).symm⟩
  | succ fuel ih =>
    intro list i size before enough
    unfold listWalk
    split_ifs with none_left
    · exact ⟨Nat.zero_le _, nofun, fun _ => none_left.symm⟩
    have positive : 0 < min size pageSize := Nat.lt_min.mpr ⟨Nat.pos_of_ne_zero none_left, by decide⟩
    cases nextList map mem list i size with
    | error fault => exact ⟨Nat.zero_le _, nofun, nofun⟩
    | ok place =>
      obtain ⟨next, j⟩ := place
      dsimp only
      split_ifs
      · exact ⟨Nat.zero_le _, nofun, nofun⟩
      · obtain ⟨short, some_bytes, whole⟩ := @ih next (j + 1) (size - min size pageSize) (before + 1)
          (by omega)
        simp only [Walk.after, total_append]
        rw [show total [(prpItem mem next j, min size pageSize)] = min size pageSize by simp [total]]
        refine ⟨by omega, fun p member => ?_, fun ends => by rw [whole ends]; omega⟩
        obtain rfl | member := List.mem_cons.mp member
        · exact positive
        · exact some_bytes p member

variable {st : Store} {cmd : RwCommand}

theorem designated_first : ∃ rest,
    (designated map st cmd mem).pages = (clearLow cmd.prp1, cmd.cpsz st) :: rest := by
  unfold designated
  dsimp only
  split_ifs
  · exact ⟨_, rfl⟩
  · exact ⟨_, rfl⟩
  · cases map (clearLow cmd.prp2) pageSize with
    | none => exact ⟨_, rfl⟩
    | some list => exact ⟨_, rfl⟩

theorem designated_total (sectors : 0 < st.sectsz) :
    total (designated map st cmd mem).pages ≤ cmd.bytes st ∧
      (∀ p ∈ (designated map st cmd mem).pages, 0 < p.2) ∧
      ((designated map st cmd mem).stop = .whole →
        total (designated map st cmd mem).pages = cmd.bytes st) := by
  have some_bytes : 0 < cmd.bytes st := Nat.mul_pos (Nat.succ_pos _) sectors
  have short : cmd.cpsz st ≤ cmd.bytes st := Nat.min_le_right _ _
  have positive : 0 < cmd.cpsz st := by
    refine Nat.lt_min.mpr ⟨?_, some_bytes⟩
    have inside := Nat.mod_lt (clearLow cmd.prp1).toNat (show 0 < pageSize by decide)
    omega
  unfold designated
  dsimp only
  split_ifs with none_left few
  · exact ⟨by simpa [total] using short, by simpa using positive, fun _ => by simp [total]; omega⟩
  · exact ⟨by simp [total]; omega, by simp; omega, fun _ => by simp [total]; omega⟩
  · cases map (clearLow cmd.prp2) pageSize with
    | none => exact ⟨by simpa [total] using short, by simpa using positive, nofun⟩
    | some list =>
      obtain ⟨less, each, whole⟩ := @list_walk_total map mem _ list 0 _ 1
        (Nat.le_refl (cmd.bytes st - cmd.cpsz st))
      simp only [Walk.after, total_append]
      rw [show total [(clearLow cmd.prp1, cmd.cpsz st)] = cmd.cpsz st by simp [total]]
      refine ⟨by omega, fun p member => ?_, fun ends => by rw [whole ends]; omega⟩
      obtain rfl | member := List.mem_cons.mp member
      · exact positive
      · exact each p member

end

section
variable {map : MapGpa} {st : Store} {write : Bool} {d : Disk} {reads : List (Nat × Nat)}
  {all : List Page} {lba : Nat} {P : List Page → Work → Prop} {lost : Prop}

/-- Each page is taken in turn, and leaves what holds of the pages so far, or it is followed to
    nowhere. -/
def Goes (map : MapGpa) (st : Store) (write : Bool) (lba : Nat) (all : List Page)
    (P : List Page → Work → Prop) (lost : Prop) : Prop :=
  ∀ done p rest w, all = done ++ p :: rest → P done w →
    (∃ w', appendIovReq map st write p.1 p.2 ((lba + total done) % 2 ^ 64) w = .ok (false, w') ∧
      P (done ++ [p]) w') ∨
    (lost ∧ appendIovReq map st write p.1 p.2 ((lba + total done) % 2 ^ 64) w = .error .nullBase)

def Steady (d : Disk) (reads : List (Nat × Nat)) (P : List Page → Work → Prop) : Prop :=
  ∀ done w, P done w → ∀ item ∈ reads, item.2 = done.length →
    ∀ k < 8, w.disk.mem (item.1 + k) = d.mem (item.1 + k)

/-- What comes of the pages, with what holds then. -/
inductive Ends (lost : Prop) (P : Work → Prop) : Stop → Except Fault (Bool × Work) → Prop
  | whole {w : Work} (holds : P w) : Ends lost P .whole (.ok (false, w))
  | zeroItem {w : Work} (holds : P w) : Ends lost P .zeroItem (.ok (true, w))
  | unlisted {fault : Fault} (other : fault ≠ .outOfBounds) : Ends lost P .unlisted (.error fault)
  | lost {stop : Stop} (here : lost) : Ends lost P stop (.error .nullBase)

variable {mem : Nat → Byte} {list i size before : Nat}

theorem prp_item_same {mem mem' : Nat → Byte} {list i : Nat}
    (same : ∀ k < 8, mem' (list + 8 * i + k) = mem (list + 8 * i + k)) :
    prpItem mem' list i = prpItem mem list i := by
  have sums := foldr_ext
    (fun k sum => (mem' (list + 8 * i + k)).toNat + 256 * sum)
    (fun k sum => (mem (list + 8 * i + k)).toNat + 256 * sum) (l := List.range 8) 0
    fun k member sum => by rw [same k (List.mem_range.mp member)]
  unfold prpItem
  rw [sums]

theorem next_list_same {mem' : Nat → Byte}
    (same : ∀ item ∈ linkRead list i size before, ∀ k < 8, mem' (item.1 + k) = mem (item.1 + k)) :
    nextList map mem' list i size = nextList map mem list i size := by
  unfold nextList
  split
  · next last =>
    unfold linkRead at same
    rw [if_pos last] at same
    rw [prp_item_same (same _ mem_cons_self)]
  · rfl

theorem next_list_fault {fault : Fault} (faulted : nextList map mem list i size = .error fault) :
    fault ≠ .outOfBounds := by
  unfold nextList at faulted
  split at faulted
  · split at faulted
    · cases faulted
      decide
    · split at faulted <;> cases faulted
      decide
  · cases faulted

theorem link_read_before {item : Nat × Nat} (member : item ∈ linkRead list i size before) :
    item.2 = before := by
  unfold linkRead at member
  split_ifs at member
  · rw [List.mem_singleton.mp member]
  · cases member

theorem prp_loop_runs (goes : Goes map st write lba all P lost) (steady : Steady d reads P) {fuel : Nat} :
    ∀ {list i size : Nat}, size ≤ fuel → ∀ done w,
      (∀ item ∈ (listWalk map d.mem fuel list i size done.length).reads, item ∈ reads) →
      all = done ++ (listWalk map d.mem fuel list i size done.length).pages → P done w →
      Ends lost (P all) (listWalk map d.mem fuel list i size done.length).stop
        (prpLoop map st write fuel list i ((lba + total done) % 2 ^ 64) size w) := by
  induction fuel with
  | zero =>
    intro list i size enough done w _ whole holds
    rw [listWalk, append_nil] at whole
    exact .whole (whole ▸ holds)
  | succ fuel ih =>
    intro list i size enough done w listed whole holds
    unfold listWalk at listed whole ⊢
    unfold prpLoop
    by_cases none_left : size = 0
    · rw [if_pos none_left, append_nil] at whole
      rw [if_pos none_left, if_pos none_left]
      exact .whole (whole ▸ holds)
    rw [if_neg none_left] at listed whole ⊢
    rw [if_neg none_left]
    have linked : nextList map w.disk.mem list i size = nextList map d.mem list i size := by
      refine @next_list_same _ _ _ _ _ done.length _ fun item member => ?_
      refine steady done w holds item (listed item ?_) (link_read_before member)
      cases nextList map d.mem list i size with
      | error fault => exact member
      | ok place =>
        dsimp only
        split_ifs
        · exact mem_append_left _ member
        · exact mem_append_left _ (mem_append_left _ member)
    rw [linked]
    cases goes_to : nextList map d.mem list i size with
    | error fault => exact .unlisted (next_list_fault goes_to)
    | ok place =>
      obtain ⟨next, j⟩ := place
      rw [goes_to] at listed whole
      dsimp only at listed whole ⊢
      have here : prpItem w.disk.mem next j = prpItem d.mem next j := by
        refine prp_item_same (steady done w holds (next + 8 * j, done.length) (listed _ ?_) rfl)
        split_ifs
        · exact mem_append_right _ mem_cons_self
        · exact mem_append_left _ (mem_append_right _ mem_cons_self)
      rw [here]
      by_cases zero : prpItem d.mem next j = 0
      · rw [if_pos zero, append_nil] at whole
        rw [if_pos zero, if_pos zero]
        exact .zeroItem (whole ▸ holds)
      · rw [if_neg zero] at listed whole ⊢
        rw [if_neg zero]
        obtain ⟨w', ran, kept⟩ | ⟨nowhere, ran⟩ := goes done _ _ w whole holds
        · rw [ran]
          have on : ((lba + total done) % 2 ^ 64 + min size pageSize) % 2 ^ 64 =
              (lba + total (done ++ [(prpItem d.mem next j, min size pageSize)])) % 2 ^ 64 := by
            rw [total_append, Nat.mod_add_mod, Nat.add_assoc]
            simp [total]
          dsimp only
          rw [on]
          have count : (done ++ [(prpItem d.mem next j, min size pageSize)]).length = done.length + 1 :=
            length_append
          have again := @ih next (j + 1) (size - min size pageSize) (by unfold pageSize; omega) _ w'
            (by
              rw [count]
              exact fun item member => listed item (mem_append_right _ member))
            (by
              rw [count, List.append_assoc]
              exact whole) kept
          rw [count] at again
          exact again
        · rw [ran]
          exact .lost nowhere

theorem rw_command_runs {cmd : RwCommand} (named : (designated map st cmd d.mem).pages = all)
    (listed : (designated map st cmd d.mem).reads = reads)
    (goes : Goes map st cmd.writes (cmd.start st) all P lost) (steady : Steady d reads P)
    (holds : P [] ⟨d, newRequest cmd, 0⟩) :
    ∃ result, Ends lost (P all) (designated map st cmd d.mem).stop result ∧
      rwCommand map st cmd d = match result with
        | .error fault => .error fault
        | .ok (err, w) => finish st cmd err w := by
  have zero : ∀ p : Page, total [p] = p.2 := fun p => by simp [total]
  have second : (cmd.slba * st.sectsz % 2 ^ 64 + cmd.cpsz st) % 2 ^ 64 =
      (cmd.start st + total ([] ++ [(clearLow cmd.prp1, cmd.cpsz st)])) % 2 ^ 64 := by
    rw [nil_append, zero, Nat.mod_add_mod]
    rfl
  obtain ⟨rest, whole⟩ := @designated_first map d.mem st cmd
  rw [named] at whole
  obtain ⟨w, ran, kept⟩ | ⟨nowhere, ran⟩ := goes [] _ _ _ whole holds
  · replace ran : appendIovReq map st (decide (cmd.opc = opcWrite)) (clearLow cmd.prp1) (cmd.cpsz st)
        (cmd.slba * st.sectsz % 2 ^ 64) ⟨d, newRequest cmd, 0⟩ = .ok (false, w) := ran
    suffices later : Ends lost (P all) (designated map st cmd d.mem).stop
        (appendRest map st cmd.writes (clearLow cmd.prp2) (cmd.bytes st - cmd.cpsz st)
          ((cmd.start st + total ([] ++ [(clearLow cmd.prp1, cmd.cpsz st)])) % 2 ^ 64) false w) by
      rw [← second] at later
      refine ⟨_, later, ?_⟩
      unfold rwCommand
      dsimp only
      rw [ran]
      rfl
    unfold designated at named listed ⊢
    dsimp only at named listed ⊢
    unfold appendRest
    split_ifs at named listed ⊢ with none_left short
    · rw [← named]
      exact .whole kept
    · subst named
      obtain ⟨w', ran, kept⟩ | ⟨nowhere, ran⟩ := goes _ _ [] w rfl kept
      · rw [ran]
        exact .whole kept
      · rw [ran]
        exact .lost nowhere
    · cases first : map (clearLow cmd.prp2) pageSize with
      | none => exact .unlisted (by decide)
      | some list =>
        rw [first] at named listed
        have items : ∀ item ∈ (listWalk map d.mem (cmd.bytes st - cmd.cpsz st) list 0
            (cmd.bytes st - cmd.cpsz st) 1).reads, item ∈ reads := by
          rw [← listed]
          exact fun item member => member
        exact prp_loop_runs goes steady (Nat.le_refl _) _ w items named.symm kept
  · replace ran : appendIovReq map st (decide (cmd.opc = opcWrite)) (clearLow cmd.prp1) (cmd.cpsz st)
        (cmd.slba * st.sectsz % 2 ^ 64) ⟨d, newRequest cmd, 0⟩ = .error .nullBase := ran
    refine ⟨.error .nullBase, .lost nowhere, ?_⟩
    unfold rwCommand
    dsimp only
    rw [ran]

end

section
variable {map : MapGpa} {base : Nat} {st : Store} {write : Bool} {d : Disk} {start : Nat}

def moved (write : Bool) (start n : Nat) (addresses : List Nat) (d : Disk) : Disk :=
  let places := List.range' start n
  if write then { d with store := place (addresses.map d.mem) places d.store }
  else { d with mem := place (places.map d.store) addresses d.mem }

theorem moved_length {n : Nat} {addresses : List Nat} :
    (moved write start n addresses d).length = d.length := by
  cases write <;> rfl

theorem moved_append {n m : Nat} {addresses others : List Nat} (count : addresses.length = n) :
    moved write (start + n) m others (moved write start n addresses d) =
      moved write start (n + m) (addresses ++ others) d := by
  unfold moved
  rw [← range'_append_1]
  cases write with
  | true =>
    simp only [if_true]
    rw [map_append, place_append _ _ (by rw [length_map, count, length_range'])]
  | false =>
    simp only [Bool.false_eq_true, if_false]
    rw [map_append, place_append _ _ (by rw [length_map, count, length_range'])]

theorem moved_exactly {n : Nat} {addresses : List Nat} (count : addresses.length = n)
    (inside : start + n ≤ d.length) :
    Transferred write start n addresses d (moved write start n addresses d) := by
  refine ⟨inside, count, moved_length, ?_, ?_⟩
  · rintro rfl
    refine ⟨fun k a here last => ?_, fun a apart => place_other apart _ _, rfl⟩
    have short : k < n := count ▸ (List.getElem?_eq_some_iff.mp here).1
    refine place_here ?_ here last _
    rw [getElem?_map, getElem?_range' short]
    simp
  · rintro rfl
    have length : (addresses.map d.mem).length = n := by rw [length_map, count]
    obtain ⟨found, others⟩ := place_block (addresses.map d.mem) start d.store
    rw [length] at found others
    refine ⟨fun k a here => found k _ ?_, others, rfl⟩
    rw [getElem?_map, here]
    rfl

theorem copy_ram_goes (linear : Linear map base) {done : List Page} {p : Page} {w : Work}
    (pages : AllMapped map (done ++ [p]))
    (inside : start + total done + p.2 ≤ d.length) (small : d.length < 2 ^ 64)
    (copied : w.disk = moved write start (total done) (hostBytes map done) d) :
    ∃ w', copyRam map write p.1 p.2 ((start + total done) % 2 ^ 64) w = .ok (false, w') ∧
      w'.disk = moved write start (total (done ++ [p])) (hostBytes map (done ++ [p])) d := by
  obtain ⟨g, n⟩ := p
  have mapped := pages (g, n) (by simp)
  have before := host_bytes_length fun q member => pages q (mem_append_left _ member)
  obtain ⟨a, here⟩ := Option.ne_none_iff_exists'.mp mapped
  have at_ : a = base + g.toNat := linear.address g n a here
  have next : total (done ++ [(g, n)]) = total done + n := by
    simp [total]
  unfold copyRam
  rw [Nat.mod_eq_of_lt (by omega : start + total done < 2 ^ 64),
    Nat.mod_eq_of_lt (by omega : start + total done + n < 2 ^ 64), copied, moved_length,
    if_neg (by omega), if_neg (by omega), here, next, host_bytes_append,
    host_bytes_page linear mapped, ← at_, ← moved_append before]
  cases write <;> exact ⟨_, rfl, rfl⟩

variable {cmd : RwCommand}

theorem ram_inside (ram : st.ram = true) (linear : Linear map base) (sectors : 0 < st.sectsz)
    (small : d.length < 2 ^ 64) (inside : cmd.stop st ≤ d.length)
    (fits : ListFits cmd (designated map st cmd d.mem))
    (kept : cmd.writes = false → ItemsKept map (designated map st cmd d.mem)) :
    TransfersExactly map st cmd d := by
  obtain ⟨less, -, whole⟩ := @designated_total map d.mem st cmd sectors
  obtain ⟨pages, named⟩ : ∃ pages, (designated map st cmd d.mem).pages = pages := ⟨_, rfl⟩
  rw [named] at less whole
  let P := fun done (w : Work) =>
    (w.disk = moved cmd.writes (cmd.start st) (total done) (hostBytes map done) d ∧
      AllMapped map done) ∧ done <+: pages
  have goes : Goes map st cmd.writes (cmd.start st) pages P True := by
    intro done p rest w split holds
    have part : total pages = total done + (p.2 + total rest) := by
      rw [split, total_append]
      simp [total]
    have prefix_ : done ++ [p] <+: pages := ⟨rest, by rw [split, List.append_assoc]; rfl⟩
    have room : cmd.start st + total done + p.2 ≤ d.length := by
      unfold RwCommand.stop at inside
      omega
    unfold appendIovReq
    rw [if_pos ram]
    by_cases mapped : map p.1 p.2 = none
    · refine .inr ⟨trivial, ?_⟩
      unfold copyRam
      rw [Nat.mod_eq_of_lt (by omega : cmd.start st + total done < 2 ^ 64),
        Nat.mod_eq_of_lt (by omega : cmd.start st + total done + p.2 < 2 ^ 64), holds.1.1,
        moved_length, if_neg (by omega), if_neg (by omega), mapped]
    · have all : AllMapped map (done ++ [p]) :=
        List.forall_mem_append.mpr ⟨holds.1.2, List.forall_mem_singleton.mpr mapped⟩
      obtain ⟨w', ran, copied⟩ := copy_ram_goes linear all room small holds.1.1
      exact .inl ⟨w', ran, ⟨copied, all⟩, prefix_⟩
  have steady : Steady d (designated map st cmd d.mem).reads P := by
    intro done w holds item member count k short
    rw [holds.1.1]
    unfold moved
    split
    · rfl
    · next reads =>
      have before : (designated map st cmd d.mem).pages.take item.2 = done := by
        rw [named, count]
        exact (List.prefix_iff_eq_take.mp holds.2).symm
      refine place_other (fun member' => ?_) _ _
      have apart := kept (Bool.eq_false_iff.mpr reads) item member (before ▸ holds.1.2) _
        (before ▸ member')
      omega
  have start : d = moved cmd.writes (cmd.start st) (total []) (hostBytes map []) d := by
    cases cmd.writes <;> rfl
  obtain ⟨result, ends, ran⟩ := rw_command_runs named rfl goes steady
    ⟨⟨start, fun _ never => absurd never not_mem_nil⟩, nil_prefix⟩
  simp only [finish, ram, if_true] at ran
  have past : ¬ d.length < cmd.stop st := by omega
  generalize stops : (designated map st cmd d.mem).stop = stop at ends
  cases ends with
  | whole holds =>
    refine ⟨fun d' succeeds => ⟨stops, fits, ?_⟩, fun beyond => absurd beyond past, ?_⟩
    · cases ran.symm.trans succeeds
      rw [named, holds.1.1, whole stops]
      exact moved_exactly ((host_bytes_length holds.1.2).trans (whole stops)) inside
    · rw [ran]
      exact fun never => by cases never
  | zeroItem holds =>
    refine ⟨fun d' succeeds => ?_, fun beyond => absurd beyond past, ?_⟩
    · cases ran.symm.trans succeeds
    · rw [ran]
      exact fun never => by cases never
  | unlisted other =>
    refine ⟨fun d' succeeds => ?_, fun beyond => absurd beyond past, ?_⟩
    · cases ran.symm.trans succeeds
    · rw [ran]
      exact fun same => other (Except.error.inj same)
  | lost here =>
    refine ⟨fun d' succeeds => ?_, fun beyond => absurd beyond past, ?_⟩
    · cases ran.symm.trans succeeds
    · rw [ran]
      exact fun never => by cases never

theorem ram_caught (ram : st.ram = true) (caught : CaughtFirst map st cmd d) :
    TransfersExactly map st cmd d := by
  have refused : ∀ g n lba, Caught d lba n → appendIovReq map st cmd.writes g n (lba % 2 ^ 64)
      ⟨d, newRequest cmd, 0⟩ = .ok (true, ⟨d, newRequest cmd, 0⟩) := by
    intro g n lba past
    unfold Caught at past
    unfold appendIovReq copyRam
    rw [if_pos ram, Nat.mod_add_mod, if_pos past]
  obtain ⟨here, later⟩ := caught
  have first := refused (clearLow cmd.prp1) (cmd.cpsz st) (cmd.start st) here
  have rested : appendRest map st cmd.writes (clearLow cmd.prp2) (cmd.bytes st - cmd.cpsz st)
      ((cmd.start st + cmd.cpsz st) % 2 ^ 64) true ⟨d, newRequest cmd, 0⟩ =
        .ok (true, ⟨d, newRequest cmd, 0⟩) := by
    unfold appendRest
    obtain none_left | ⟨short, caught⟩ | ⟨long, list, member, stops⟩ := later
    · rw [if_pos none_left]
    · split_ifs
      · rfl
      · exact refused _ _ _ caught
    · rw [if_neg (by omega), if_neg (by omega), Option.mem_def.mp member]
      dsimp only
      obtain ⟨fuel, fuelled⟩ := Nat.exists_eq_succ_of_ne_zero
        (show cmd.bytes st - cmd.cpsz st ≠ 0 by omega)
      have stays : nextList map d.mem list 0 (cmd.bytes st - cmd.cpsz st) = .ok (list, 0) := by
        exact if_neg fun last => absurd last.1 (by decide)
      have page : min (fuel + 1) pageSize = pageSize := by omega
      rw [fuelled] at stays ⊢
      unfold prpLoop
      rw [if_neg (Nat.succ_ne_zero fuel), stays]
      dsimp only
      rw [page]
      split
      · rfl
      · next some_item => rw [refused _ _ _ (stops.resolve_left some_item)]
  have ended : rwCommand map st cmd d = .ok (statusGenc scLbaOutOfRange, d) := by
    unfold RwCommand.writes at first rested
    unfold RwCommand.start at first
    unfold rwCommand
    dsimp only
    rw [first]
    dsimp only
    rw [Nat.mod_add_mod]
    unfold RwCommand.start at rested
    rw [rested]
    dsimp only
    unfold finish
    rw [if_pos ram]
    rfl
  refine ⟨fun d' succeeds => ?_, fun _ => ⟨_, ended, by decide⟩, ?_⟩
  · rw [ended] at succeeds
    cases succeeds
  · rw [ended]
    exact nofun

end

section
variable {st : Store} {n offset : Nat}

def Mapped (iov : List Iov) : Prop := ∀ v ∈ iov, v.base ≠ none

theorem addresses_some {base len : Nat} :
    Iov.addresses ⟨some base, len⟩ = List.range' base len := rfl

theorem range_parts {a n m : Nat} (short : m ≤ n) :
    List.range' a n = List.range' a m ++ List.range' (a + m) (n - m) := by
  rw [range'_append_1, Nat.add_sub_cancel' short]

theorem block_take {a n m : Nat} (more : List Nat) (short : m ≤ n) :
    (List.range' a n ++ more).take m = List.range' a m ∧
      (List.range' a n ++ more).drop m = List.range' (a + m) (n - m) ++ more := by
  rw [range_parts short, List.append_assoc]
  exact ⟨take_left' length_range', drop_left' length_range'⟩

theorem block_past {a n m : Nat} (more : List Nat) (whole : n ≤ m) :
    (List.range' a n ++ more).take m = List.range' a n ++ more.take (m - n) ∧
      (List.range' a n ++ more).drop m = more.drop (m - n) := by
  have length : (List.range' a n).length = n := length_range'
  constructor
  · rw [take_append, length, take_of_length_le (length.trans_le whole)]
  · rw [drop_append, length, drop_of_length_le (length.trans_le whole), nil_append]

/-- The vectors that are left of a request when so many of its bytes are moved. -/
def advance : Nat → List Iov → Except Fault (List Iov)
  | _, [] => .error .outOfBounds
  | want, v :: rest =>
      match v.base with
      | none => .error .nullBase
      | some base =>
          if want < v.len then .ok (⟨some (base + want), v.len - want⟩ :: rest)
          else if want = v.len then .ok rest
          else advance (want - v.len) rest

theorem spread_advance {iov : List Iov} : ∀ (data : List Byte) (mem : Nat → Byte),
    spread data iov mem = (advance data.length iov).map fun left =>
      (place data ((iov.flatMap Iov.addresses).take data.length) mem, left) := by
  induction iov with
  | nil => exact fun _ _ => rfl
  | cons v rest ih =>
    intro data mem
    obtain ⟨none | base, len⟩ := v
    · rfl
    rw [flatMap_cons, addresses_some]
    unfold spread advance
    dsimp only
    by_cases short : data.length < len
    · rw [Nat.min_eq_left (Nat.le_of_lt short), if_pos short, if_pos short, take_length,
        (block_take _ (Nat.le_of_lt short)).1]
      rfl
    · have whole : len ≤ data.length := Nat.le_of_not_lt short
      rw [Nat.min_eq_right whole, if_neg (Nat.lt_irrefl _), if_neg short, (block_past _ whole).1]
      split_ifs with exact_
      · rw [exact_, Nat.sub_self, take_zero, append_nil, ← exact_, take_length]
        rfl
      · rw [ih, length_drop, ← place_append (data.drop len) _
          (by rw [length_take, length_range', Nat.min_eq_left whole]) mem,
          take_append_drop]

theorem collect_advance {mem : Nat → Byte} {iov : List Iov} : ∀ want : Nat,
    collect mem want iov = (advance want iov).map fun left =>
      (((iov.flatMap Iov.addresses).take want).map mem, left) := by
  induction iov with
  | nil => exact fun _ => rfl
  | cons v rest ih =>
    intro want
    obtain ⟨none | base, len⟩ := v
    · rfl
    rw [flatMap_cons, addresses_some]
    unfold collect advance
    dsimp only
    by_cases short : want < len
    · rw [Nat.min_eq_left (Nat.le_of_lt short), if_pos short, if_pos short,
        (block_take _ (Nat.le_of_lt short)).1]
      rfl
    · have whole : len ≤ want := Nat.le_of_not_lt short
      rw [Nat.min_eq_right whole, if_neg (Nat.lt_irrefl _), if_neg short, (block_past _ whole).1]
      split_ifs with exact_
      · rw [exact_, Nat.sub_self, take_zero, append_nil]
        rfl
      · rw [ih]
        cases advance (want - len) rest with
        | error fault => rfl
        | ok left =>
          rw [map_append]
          rfl

/-- The vectors of a request of so many bytes, with or without a place in the host. -/
structure Sized (iov : List Iov) (n : Nat) : Prop where
  positive : ∀ v ∈ iov, 0 < v.len
  bytes : (iov.map Iov.len).sum = n

theorem sized_nil {iov : List Iov} (sized : Sized iov 0) : iov = [] := by
  cases iov with
  | nil => rfl
  | cons v rest =>
    have some_bytes := sized.positive v mem_cons_self
    have bytes := sized.bytes
    rw [map_cons, sum_cons] at bytes
    omega

theorem iov_length {iov : List Iov} (sized : Sized iov n) (mapped : Mapped iov) :
    (iov.flatMap Iov.addresses).length = n := by
  rw [← sized.bytes]
  clear sized
  induction iov with
  | nil => rfl
  | cons v rest ih =>
    obtain ⟨none | base, len⟩ := v
    · exact absurd rfl (mapped ⟨none, len⟩ mem_cons_self)
    · rw [flatMap_cons, length_append, map_cons, sum_cons, addresses_some,
        length_range', ih fun v member => mapped v (mem_cons_of_mem _ member)]

theorem advance_sized {iov : List Iov} : ∀ {n want : Nat}, Sized iov n → 0 < want → want ≤ n →
    (advance want iov = .error .nullBase ∧ ¬ Mapped iov) ∨ ∃ left, advance want iov = .ok left ∧
      Sized left (n - want) ∧ (Mapped left → Mapped iov) ∧
      left.flatMap Iov.addresses = (iov.flatMap Iov.addresses).drop want ∧
      ((iov.flatMap Iov.addresses).take want).length = want := by
  induction iov with
  | nil =>
    intro n want sized some_bytes enough
    have bytes : 0 = n := sized.bytes
    omega
  | cons v rest ih =>
    intro n want sized some_bytes enough
    obtain ⟨none | base, len⟩ := v
    · exact .inl ⟨rfl, fun mapped => mapped _ mem_cons_self rfl⟩
    have others : ∀ v ∈ rest, 0 < v.len := fun v member =>
      sized.positive v (mem_cons_of_mem _ member)
    have bytes := sized.bytes
    rw [map_cons, sum_cons] at bytes
    dsimp only at bytes
    have mapped : Mapped rest → Mapped (⟨some base, len⟩ :: rest) := fun mapped =>
      List.forall_mem_cons.mpr ⟨nofun, mapped⟩
    rw [flatMap_cons, addresses_some]
    unfold advance
    dsimp only
    split_ifs with short exact_
    · obtain ⟨taken, dropped⟩ :=
        @block_take base len want (rest.flatMap Iov.addresses) (Nat.le_of_lt short)
      rw [taken, dropped]
      refine .inr ⟨_, rfl, ⟨?_, ?_⟩, ?_, rfl, length_range'⟩
      · exact List.forall_mem_cons.mpr ⟨Nat.sub_pos_of_lt short, others⟩
      · rw [map_cons, sum_cons]
        dsimp only
        omega
      · exact fun whole => mapped (List.forall_mem_cons.mp whole).2
    · subst exact_
      rw [(block_past _ (Nat.le_refl _)).1, (block_past _ (Nat.le_refl _)).2, Nat.sub_self,
        drop_zero, take_zero, append_nil]
      exact .inr ⟨_, rfl, ⟨others, by omega⟩, mapped, rfl, length_range'⟩
    · obtain ⟨taken, dropped⟩ :=
        @block_past base len want (rest.flatMap Iov.addresses) (Nat.le_of_not_lt short)
      rw [taken, dropped]
      obtain ⟨faulted, missing⟩ | ⟨left, ran, after, kept, addresses, count⟩ :=
        @ih (n - len) (want - len) ⟨others, by omega⟩ (by omega) (by omega)
      · exact .inl ⟨faulted, fun whole => missing (List.forall_mem_cons.mp whole).2⟩
      · rw [show n - len - (want - len) = n - want by omega] at after
        refine .inr ⟨left, ran, after, fun whole => mapped (kept whole), addresses, ?_⟩
        rw [length_append, length_range', count]
        omega

/-- No index is out of bounds, and a success has moved the bytes of vectors that all have a place. -/
structure MovesAll (write : Bool) (start n : Nat) (iov : List Iov) (d : Disk)
    (result : Except Fault (Bool × Disk)) : Prop where
  indexed : result ≠ .error .outOfBounds
  all : ∀ d', result = .ok (false, d') →
    Mapped iov ∧ d' = moved write start n (iov.flatMap Iov.addresses) d

section
variable {write : Bool} {start : Nat} {iov : List Iov} {d : Disk}

theorem nothing_moves (sized : Sized iov 0) : MovesAll write start 0 iov d (.ok (false, d)) := by
  obtain rfl := sized_nil sized
  refine ⟨nofun, fun d' same => ?_⟩
  cases same
  cases write <;> exact ⟨nofun, rfl⟩

theorem faulted_moves : MovesAll write start n iov d (.error .nullBase) := ⟨nofun, nofun⟩

theorem failed_moves {d' : Disk} : MovesAll write start n iov d (.ok (true, d')) := ⟨nofun, nofun⟩

/-- The bytes up to some place are moved first, and then the others. -/
theorem moves_on {len : Nat} {left : List Iov} {result : Except Fault (Bool × Disk)} (part : len ≤ n)
    (mapped : Mapped left → Mapped iov)
    (addresses : left.flatMap Iov.addresses = (iov.flatMap Iov.addresses).drop len)
    (count : ((iov.flatMap Iov.addresses).take len).length = len)
    (moves : MovesAll write (start + len) (n - len) left
      (moved write start len ((iov.flatMap Iov.addresses).take len) d) result) :
    MovesAll write start n iov d result := by
  refine ⟨moves.indexed, fun d' ran => ?_⟩
  obtain ⟨whole, rfl⟩ := moves.all d' ran
  refine ⟨mapped whole, ?_⟩
  rw [moved_append count, addresses, take_append_drop, Nat.add_sub_cancel' part]

end

theorem content_inside {d : Disk} {offset n : Nat} (inside : offset + n ≤ d.length) :
    d.content offset n = (List.range' offset n).map d.store := by
  unfold Disk.content
  rw [Nat.min_eq_left (by omega)]

theorem write_inside {d : Disk} {values : List Byte} (inside : offset + values.length ≤ d.length) :
    d.write offset values =
      { d with store := place values (List.range' offset values.length) d.store } := by
  unfold Disk.write
  rw [Nat.max_eq_left inside, ite_self]

theorem read_loop_moves (positive : 0 < st.maxphys) {fuel : Nat} :
    ∀ {resid off : Nat} (buf : List Byte) {iov : List Iov} {d : Disk}, resid ≤ fuel →
      Sized iov resid → offset + off + resid ≤ d.length →
      MovesAll false (offset + off) resid iov d (readLoop st n offset fuel resid off buf iov d) := by
  induction fuel with
  | zero =>
    intro resid off buf iov d enough sized _
    obtain rfl : resid = 0 := by omega
    exact nothing_moves sized
  | succ fuel ih =>
    intro resid off buf iov d enough sized inside
    unfold readLoop
    split_ifs with none_left fails
    · subst none_left
      exact nothing_moves sized
    · exact failed_moves
    · obtain ⟨len, is_len⟩ : ∃ len, min resid st.maxphys = len := ⟨_, rfl⟩
      have part : len ≤ resid := by omega
      have got := @content_inside d (offset + off) len (by omega)
      have length : (d.content (offset + off) len).length = len := by simp [got]
      dsimp only
      rw [is_len, take_left' length, spread_advance, length]
      obtain ⟨faulted, -⟩ | ⟨left, ran, after, mapped, addresses, count⟩ :=
        @advance_sized iov resid len sized (by omega) part
      · rw [faulted]
        exact faulted_moves
      · rw [ran, got]
        refine moves_on part mapped addresses count ?_
        rw [Nat.add_assoc]
        exact ih _ (by omega) after (by rw [moved_length]; omega)

theorem write_loop_moves (positive : 0 < st.maxphys) {fuel : Nat} :
    ∀ {resid off : Nat} {iov : List Iov} {d : Disk}, resid ≤ fuel → Sized iov resid →
      offset + off + resid ≤ d.length →
      MovesAll true (offset + off) resid iov d (writeLoop st n offset fuel resid off iov d) := by
  induction fuel with
  | zero =>
    intro resid off iov d enough sized _
    obtain rfl : resid = 0 := by omega
    exact nothing_moves sized
  | succ fuel ih =>
    intro resid off iov d enough sized inside
    unfold writeLoop
    split
    · next none_left =>
      subst none_left
      exact nothing_moves sized
    · obtain ⟨len, is_len⟩ : ∃ len, min resid st.maxphys = len := ⟨_, rfl⟩
      have part : len ≤ resid := by omega
      dsimp only
      rw [is_len, collect_advance]
      obtain ⟨faulted, -⟩ | ⟨left, ran, after, mapped, addresses, count⟩ :=
        @advance_sized iov resid len sized (by omega) part
      · rw [faulted]
        exact faulted_moves
      · rw [ran]
        dsimp only [Except.map]
        split
        · exact failed_moves
        · refine moves_on part mapped addresses count ?_
          rw [write_inside (by rw [length_map]; omega), length_map, count, Nat.add_assoc]
          exact ih (by omega) after (by rw [moved_length]; omega)

end

section
variable {map : MapGpa} {base : Nat} {st : Store} {write : Bool} {d : Disk} {lba : Nat}

/-- The request after some pages, as far as it does not depend on where they are in the host. -/
structure Queued (map : MapGpa) (d : Disk) (lba : Nat) (done : List Page) (w : Work) : Prop where
  disk : w.disk = d
  requests : w.requests = 0
  bases : w.req.iov.map Iov.base = (pieces done).bases.map fun b => map b.1 b.2
  start : w.req.prevGpaddr = (pieces done).start
  size : w.req.prevSize = (pieces done).size
  resid : w.req.resid = total done
  bytes : (w.req.iov.map Iov.len).sum = total done
  positive : ∀ v ∈ w.req.iov, 0 < v.len
  last : done ≠ [] → w.req.offset = lba ∧ ∃ before v, w.req.iov = before ++ [v] ∧
    v.len = w.req.prevSize

structure Listed (map : MapGpa) (base : Nat) (done : List Page) (w : Work) : Prop where
  mapped : Mapped w.req.iov
  bytes : w.req.iov.flatMap Iov.addresses = hostBytes map done
  last : done ≠ [] → map w.req.prevGpaddr w.req.prevSize ≠ none ∧
    ∃ before, w.req.iov =
      before ++ [⟨some (base + w.req.prevGpaddr.toNat), w.req.prevSize⟩]

variable {done : List Page} {w w' : Work} {g : BitVec 64} {n : Nat}

theorem queued_length (queued : Queued map d lba done w) :
    w.req.iov.length = (pieces done).bases.length := by
  simpa using congrArg List.length queued.bases

theorem merge_queued (some_bytes : 0 < n) (some_done : done ≠ [])
    (adjacent : w.req.prevGpaddr + BitVec.ofNat 64 w.req.prevSize = g)
    (queued : Queued map d lba done w) :
    ∃ w', mergeIov map n w = .ok (false, w') ∧ Queued map d lba (done ++ [(g, n)]) w' := by
  obtain ⟨offset, before, v, iov, len⟩ := queued.last some_done
  have added : pieces (done ++ [(g, n)]) = ⟨(pieces done).bases.dropLast ++ [((pieces done).start, n)],
      (pieces done).start, (pieces done).size + n⟩ := by
    rw [pieces_append, Pieces.add, if_pos (by rw [← queued.start, ← queued.size, adjacent])]
  have bases := congrArg List.dropLast queued.bases
  rw [← map_dropLast, ← map_dropLast] at bases
  have bytes := queued.bytes
  rw [iov, map_append, sum_append] at bytes
  unfold mergeIov
  rw [if_neg (by rw [iov]; simp)]
  refine ⟨_, rfl, queued.disk, queued.requests, ?_, ?_, ?_, ?_, ?_, fun v member => ?_, fun _ => ?_⟩
  · rw [added, map_append, map_append, bases, queued.start]
    rfl
  · rw [added, queued.start]
  · rw [added, queued.size]
  · rw [total_append, ← queued.resid]
    simp [total]
  · rw [total_append, ← bytes, iov, dropLast_concat, map_append, sum_append]
    simp [total, len]
    omega
  · obtain member | member := List.mem_append.mp member
    · exact queued.positive v (dropLast_subset _ member)
    · rw [List.mem_singleton.mp member]
      exact Nat.add_pos_right _ some_bytes
  · exact ⟨offset, _, _, rfl, rfl⟩

theorem new_queued {at_ : Nat} (some_bytes : 0 < n) (first : done = [] → at_ = lba)
    (apart : w.req.prevGpaddr + BitVec.ofNat 64 w.req.prevSize ≠ g)
    (room : (pieces (done ++ [(g, n)])).bases.length ≤ maxBlockiovs)
    (queued : Queued map d lba done w) : ∃ w', newIov map st write g n at_ w = .ok (false, w') ∧
      Queued map d lba (done ++ [(g, n)]) w' := by
  have added : pieces (done ++ [(g, n)]) = ⟨(pieces done).bases ++ [(g, n)], g, n⟩ := by
    rw [pieces_append, Pieces.add, if_neg (by rw [← queued.start, ← queued.size]; exact apart)]
  rw [added] at room
  have one_more : w.req.iov.length + 1 ≤ maxBlockiovs := by
    rw [queued_length queued]
    simpa using room
  have same : partialIo st write w = .ok w := by
    exact if_neg (by omega)
  have empty : w.req.iov.isEmpty = true ↔ done = [] := by
    constructor
    · intro none_listed
      by_contra some_done
      obtain ⟨-, before, v, iov, -⟩ := queued.last some_done
      rw [iov] at none_listed
      simp at none_listed
    · rintro rfl
      exact List.isEmpty_iff.mpr (eq_nil_of_length_eq_zero (queued_length queued))
  unfold newIov
  rw [same]
  dsimp only
  rw [if_neg (by omega)]
  refine ⟨_, rfl, queued.disk, queued.requests, ?_, ?_, ?_, ?_, ?_, fun v member => ?_, fun _ => ⟨?_, ?_⟩⟩
  · rw [added, map_append, map_append, queued.bases]
    rfl
  · rw [added]
  · rw [added]
  · split
    · next none_listed =>
      obtain rfl := empty.mp none_listed
      simp [total]
    · rw [queued.resid]
      simp [total]
  · rw [total_append, map_append, sum_append, queued.bytes]
    simp [total]
  · obtain member | member := List.mem_append.mp member
    · exact queued.positive v member
    · rw [List.mem_singleton.mp member]
      exact some_bytes
  · split
    · next none_listed => exact first (empty.mp none_listed)
    · next some_listed => exact (queued.last fun none_done => some_listed (empty.mpr none_done)).1
  · exact ⟨_, _, rfl, rfl⟩

theorem merge_listed (linear : Linear map base) (mapped : map g n ≠ none) (some_done : done ≠ [])
    (adjacent : w.req.prevGpaddr + BitVec.ofNat 64 w.req.prevSize = g)
    (ran : mergeIov map n w = .ok (false, w')) (listed : Listed map base done w) :
    Listed map base (done ++ [(g, n)]) w' := by
  obtain ⟨prev, before, iov⟩ := listed.last some_done
  have joined := linear.joined _ _ n prev (adjacent.symm ▸ mapped)
  have part := linear.shorter _ _ n joined (Nat.le_add_left _ _)
  obtain ⟨p, here⟩ := Option.ne_none_iff_exists'.mp part
  have at_ := linear.address _ _ _ here
  have below := linear.below _ _ prev
  have g_nat : g.toNat = w.req.prevGpaddr.toNat + w.req.prevSize := by
    rw [← adjacent, BitVec.toNat_add, BitVec.toNat_ofNat, Nat.add_mod_mod, Nat.mod_eq_of_lt below]
  have bytes := listed.bytes
  have whole := listed.mapped
  rw [iov] at bytes whole
  unfold mergeIov at ran
  rw [if_neg (by rw [iov]; simp), here, iov, dropLast_concat, at_] at ran
  cases ran
  refine ⟨fun v member => ?_, ?_, fun _ => ⟨joined, before, rfl⟩⟩
  · obtain member | member := List.mem_append.mp member
    · exact whole v (mem_append_left _ member)
    · rw [List.mem_singleton.mp member]
      exact nofun
  · rw [host_bytes_append, host_bytes_page linear mapped, ← bytes, g_nat]
    simp only [flatMap_append, flatMap_cons, flatMap_nil, append_nil,
      addresses_some, List.append_assoc]
    rw [range_parts (Nat.le_add_right w.req.prevSize n), Nat.add_sub_cancel_left, Nat.add_assoc]

theorem new_listed {at_ : Nat} (linear : Linear map base) (mapped : map g n ≠ none)
    (room : w.req.iov.length < maxBlockiovs) (ran : newIov map st write g n at_ w = .ok (false, w'))
    (listed : Listed map base done w) : Listed map base (done ++ [(g, n)]) w' := by
  obtain ⟨p, here⟩ := Option.ne_none_iff_exists'.mp mapped
  have is_p := linear.address _ _ _ here
  have same : partialIo st write w = .ok w := by
    exact if_neg (by omega)
  unfold newIov at ran
  rw [same] at ran
  dsimp only at ran
  rw [if_neg (by omega), here, is_p] at ran
  cases ran
  refine ⟨fun v member => ?_, ?_, fun _ => ⟨mapped, _, rfl⟩⟩
  · obtain member | member := List.mem_append.mp member
    · exact listed.mapped v member
    · rw [List.mem_singleton.mp member]
      exact nofun
  · rw [host_bytes_append, host_bytes_page linear mapped, ← listed.bytes]
    simp only [flatMap_append, flatMap_cons, flatMap_nil, append_nil,
      addresses_some]

def Built (map : MapGpa) (base : Nat) (d : Disk) (lba : Nat) (done : List Page) (w : Work) : Prop :=
  Queued map d lba done w ∧ (AllMapped map done → Listed map base done w)

theorem block_goes {pages rest : List Page} {first : Page} (block : st.ram = false)
    (linear : Linear map base) (begins : pages = first :: rest) (apart : first.1 ≠ 0)
    (positive : ∀ p ∈ pages, 0 < p.2) (room : (pieces pages).bases.length ≤ maxBlockiovs) :
    Goes map st write lba pages (Built map base d (lba % 2 ^ 64)) False := by
  rintro done ⟨g, n⟩ later w split ⟨queued, listed⟩
  have some_bytes : 0 < n := positive (g, n) (by simp [split])
  have part : (pieces (done ++ [(g, n)])).bases.length ≤ maxBlockiovs := by
    have less := pieces_length_le (done ++ [(g, n)]) later
    rw [List.append_assoc, singleton_append, ← split] at less
    exact Nat.le_trans less room
  refine .inl ?_
  unfold appendIovReq
  rw [block, if_neg (by decide)]
  dsimp only
  split
  · next adjacent =>
    have some_done : done ≠ [] := by
      rintro rfl
      have zero : w.req.prevGpaddr + BitVec.ofNat 64 w.req.prevSize = 0 := by
        rw [queued.start, queued.size]
        rfl
      cases split.symm.trans begins
      exact apart (adjacent.symm.trans zero)
    obtain ⟨w', ran, kept⟩ := merge_queued some_bytes some_done adjacent queued
    refine ⟨w', ran, kept, fun all => ?_⟩
    obtain ⟨before, here⟩ := List.forall_mem_append.mp all
    exact merge_listed linear (here _ mem_cons_self) some_done adjacent ran (listed before)
  · next new =>
    obtain ⟨w', ran, kept⟩ := @new_queued map st write d (lba % 2 ^ 64) done w g n
      ((lba + total done) % 2 ^ 64) some_bytes (fun none_done => by rw [none_done]; rfl) new part queued
    refine ⟨w', ran, kept, fun all => ?_⟩
    obtain ⟨before, here⟩ := List.forall_mem_append.mp all
    have count := queued_length kept
    have room : w.req.iov.length < maxBlockiovs := by
      rw [queued_length queued]
      refine Nat.lt_of_lt_of_le ?_ part
      rw [pieces_append, Pieces.add, if_neg (by rw [← queued.start, ← queued.size]; exact new)]
      simp
    exact new_listed linear (here _ mem_cons_self) room ran (listed before)

theorem missing_iff (queued : Queued map d lba done w) :
    (∃ v ∈ w.req.iov, v.base = none) ↔ PieceMissing map done := by
  have same : none ∈ w.req.iov.map Iov.base ↔ none ∈ (pieces done).bases.map fun b => map b.1 b.2 := by
    rw [queued.bases]
  simpa [PieceMissing] using same

theorem queued_sized (queued : Queued map d lba done w) : Sized w.req.iov w.req.resid :=
  ⟨queued.positive, by rw [queued.bytes, queued.resid]⟩

theorem direct_iff (queued : Queued map d lba done w) :
    (decide (w.req.iov.length ≤ 1) || !st.geom) = true ↔ Direct st done := by
  rw [queued_length queued, Bool.or_eq_true, decide_eq_true_eq, Bool.not_eq_true']
  rfl

end

section
variable {map : MapGpa} {base : Nat} {st : Store} {write : Bool} {d : Disk} {lba : Nat}
  {pages : List Page} {w : Work}

theorem proc_moves {req : BlockReq} (positive : 0 < st.maxphys) (sized : Sized req.iov req.resid)
    (inside : req.offset + req.resid ≤ d.length) :
    MovesAll write req.offset req.resid req.iov d (blockifProc st 0 write req d) := by
  have placed : ¬ (st.fails 0 req.offset || !req.iov.all Iov.mapped) = true →
      Mapped req.iov ∧ (req.iov.flatMap Iov.addresses).length = req.resid := by
    intro fine
    rw [Bool.or_eq_true, not_or, Bool.not_eq_true', Bool.not_eq_false, List.all_eq_true] at fine
    have mapped : Mapped req.iov := fun v member none_base => by
      have here := fine.2 v member
      rw [Iov.mapped, none_base] at here
      cases here
    exact ⟨mapped, iov_length sized mapped⟩
  unfold blockifProc
  cases write with
  | true =>
    rw [if_pos rfl]
    split
    · exact failed_moves
    split
    · split
      · exact failed_moves
      · next fine =>
        obtain ⟨mapped, length⟩ := placed fine
        refine ⟨nofun, fun d' same => ⟨mapped, ?_⟩⟩
        rw [write_inside (by rw [length_map]; omega), length_map, length] at same
        cases same
        rfl
    · exact @write_loop_moves st 0 req.offset positive req.resid req.resid 0 req.iov d (Nat.le_refl _)
        sized inside
  | false =>
    rw [if_neg (by decide)]
    split
    · split
      · exact failed_moves
      · next fine =>
        obtain ⟨mapped, length⟩ := placed fine
        refine ⟨nofun, fun d' same => ⟨mapped, ?_⟩⟩
        rw [length, content_inside inside] at same
        cases same
        rfl
    · exact @read_loop_moves st 0 req.offset positive req.resid req.resid 0 _ req.iov d
        (Nat.le_refl _) sized inside

theorem proc_declined (positive : 0 < st.maxphys) (some_bytes : 0 < total pages)
    (queued : Queued map d lba pages w) (declined : (write = true ∧ st.rdonly = true) ∨
      (st.fails 0 w.req.offset = true ∧
        (write = true → Direct st pages ∨ ¬ PieceMissing map pages)) ∨
      (PieceMissing map pages ∧ Direct st pages)) :
    blockifProc st 0 write w.req d = .ok (true, d) := by
  have direct := @direct_iff map st d lba pages w queued
  have faults : st.fails 0 w.req.offset = true ∨ PieceMissing map pages →
      (st.fails 0 w.req.offset || !w.req.iov.all Iov.mapped) = true := by
    rintro (fails | missing)
    · rw [fails, Bool.true_or]
    · obtain ⟨v, member, none_base⟩ := (missing_iff queued).mpr missing
      have unmapped : w.req.iov.all Iov.mapped = false :=
        List.all_eq_false.mpr ⟨v, member, by rw [Iov.mapped, none_base]; decide⟩
      rw [unmapped, Bool.not_false, Bool.or_true]
  obtain ⟨fuel, fuelled⟩ := Nat.exists_eq_succ_of_ne_zero
    (show w.req.resid ≠ 0 by rw [queued.resid]; omega)
  unfold blockifProc
  cases write with
  | true =>
    rw [if_pos rfl]
    split
    · rfl
    next writable =>
    have declined := declined.resolve_left fun both => writable both.2
    split
    · next straight => rw [if_pos (faults (declined.imp And.left And.left))]
    · next buffered =>
      have indirect := fun straight => buffered (direct.mpr straight)
      obtain ⟨fails, found⟩ := declined.resolve_right fun both => indirect both.2
      have placed := (found rfl).resolve_left indirect
      have mapped : Mapped w.req.iov := fun v member none_base =>
        placed ((missing_iff queued).mp ⟨v, member, none_base⟩)
      obtain ⟨-, missing⟩ | ⟨left, ran, -⟩ := @advance_sized w.req.iov w.req.resid
        (min w.req.resid st.maxphys) (queued_sized queued) (by omega) (by omega)
      · exact absurd mapped missing
      · rw [fuelled] at ran ⊢
        unfold writeLoop
        rw [if_neg (Nat.succ_ne_zero fuel)]
        dsimp only
        rw [collect_advance, ran]
        dsimp only [Except.map]
        rw [Nat.add_zero, if_pos fails]
  | false =>
    have declined := declined.resolve_left fun both => absurd both.1 (by decide)
    rw [if_neg (by decide)]
    split
    · next straight => rw [if_pos (faults (declined.imp And.left And.left))]
    · next buffered =>
      obtain ⟨fails, -⟩ := declined.resolve_right fun both => buffered (direct.mpr both.2)
      rw [fuelled]
      unfold readLoop
      rw [if_neg (Nat.succ_ne_zero fuel), Nat.add_zero, if_pos fails]

variable {cmd : RwCommand}

theorem finish_request (block : st.ram = false) (moves : cmd.opc = opcRead ∨ cmd.opc = opcWrite)
    (queued : Queued map d lba pages w) : finish st cmd false w =
      match (if st.refuses 0 then .ok (true, d) else blockifProc st 0 cmd.writes w.req d) with
      | .error fault => .error fault
      | .ok (err, d') => .ok (statusGenc (if err then scDataTransferError else scSuccess), d') := by
  have handled : (false || (decide (cmd.opc ≠ opcRead) && decide (cmd.opc ≠ opcWrite))) = false := by
    obtain reads | writes := moves
    · rw [reads]
      decide
    · rw [writes]
      decide
  unfold finish blockifRequest RwCommand.writes
  rw [block, if_neg (by decide), handled, if_neg (by decide), queued.requests, queued.disk]
  split_ifs
  · rfl
  · cases blockifProc st 0 (decide (cmd.opc = opcWrite)) w.req d with
    | error fault => rfl
    | ok result => rfl

theorem declined_exactly (fails : BitVec 16) (ran : rwCommand map st cmd d = .ok (fails, d))
    (failed : fails ≠ statusGenc scSuccess) : TransfersExactly map st cmd d := by
  refine ⟨fun d' succeeds => ?_, fun _ => ⟨_, ran, failed⟩, ?_⟩
  · exact absurd (Prod.mk.inj (Except.ok.inj (ran.symm.trans succeeds))).1 failed
  · rw [ran]
    exact nofun

theorem request_sound (block : st.ram = false) (moves : cmd.opc = opcRead ∨ cmd.opc = opcWrite)
    (small : d.length < 2 ^ 64) (positive : 0 < st.maxphys) (sectors : 0 < st.sectsz)
    (named : (designated map st cmd d.mem).pages = pages)
    (stops : (designated map st cmd d.mem).stop = .whole)
    (fits : ListFits cmd (designated map st cmd d.mem))
    (built : Built map base d (cmd.start st % 2 ^ 64) pages w)
    (ran : rwCommand map st cmd d = finish st cmd false w)
    (sound : RequestSound map st cmd d pages) : TransfersExactly map st cmd d := by
  obtain ⟨queued, listed⟩ := built
  have whole := (@designated_total map d.mem st cmd sectors).2.2 stops
  rw [named] at whole
  have some_bytes : 0 < cmd.bytes st := Nat.mul_pos (Nat.succ_pos _) sectors
  have offset : w.req.offset = cmd.start st % 2 ^ 64 := by
    refine (queued.last ?_).1
    rintro rfl
    exact absurd whole (Nat.ne_of_lt some_bytes)
  have stop : cmd.stop st = cmd.start st + cmd.bytes st := rfl
  rw [finish_request block moves queued] at ran
  have failing : (st.refuses 0 = true ∨ blockifProc st 0 cmd.writes w.req d = .ok (true, d)) →
      TransfersExactly map st cmd d := by
    intro failed
    refine declined_exactly (statusGenc scDataTransferError) ?_ (by decide)
    rw [ran]
    split_ifs with refused
    · rfl
    · rw [failed.resolve_left refused]
      rfl
  by_cases refused : st.refuses 0 = true
  · exact failing (.inl refused)
  rw [if_neg refused] at ran
  have moving : PieceMissing map pages ∨ AllMapped map pages → cmd.stop st ≤ d.length →
      TransfersExactly map st cmd d := by
    intro placed inside
    have resid := queued.resid.trans whole
    rw [Nat.mod_eq_of_lt (by omega)] at offset
    obtain ⟨indexed, moved_all⟩ := @proc_moves st cmd.writes d w.req positive (queued_sized queued)
      (by omega)
    refine ⟨fun d' succeeds => ⟨stops, fits, ?_⟩, fun past => absurd inside (by omega),
      fun faulted => ?_⟩
    · rw [ran] at succeeds
      split at succeeds
      · cases succeeds
      · next err d'' proc =>
        cases err with
        | true => cases succeeds
        | false =>
          cases succeeds
          obtain ⟨mapped, rfl⟩ := moved_all d' proc
          obtain missing | all := placed
          · obtain ⟨v, member, none_base⟩ := (missing_iff queued).mpr missing
            exact absurd none_base (mapped v member)
          · rw [named, offset, resid, (listed all).bytes]
            exact moved_exactly ((host_bytes_length all).trans whole) inside
    · rw [ran] at faulted
      split at faulted
      · next fault proc =>
        cases faulted
        exact indexed proc
      · cases faulted
  obtain declined | ⟨missing, ends⟩ | ⟨all, inside⟩ := sound
  · refine failing (.inr (proc_declined positive (by omega) queued ?_))
    rw [offset]
    obtain never | rdonly | fails := declined
    · exact absurd never refused
    · exact .inl rdonly
    · exact .inr (.inl fails)
  · by_cases direct : Direct st pages
    · exact failing (.inr (proc_declined positive (by omega) queued (.inr (.inr ⟨missing, direct⟩))))
    · exact moving (.inl missing) (ends.resolve_left direct)
  · exact moving (.inr all) inside

theorem block_sound (block : st.ram = false)
    (moves : cmd.opc = opcRead ∨ cmd.opc = opcWrite) (linear : Linear map base)
    (small : d.length < 2 ^ 64) (positive : 0 < st.maxphys) (sectors : 0 < st.sectsz)
    (sound : BlockSound map st cmd d) : TransfersExactly map st cmd d := by
  obtain ⟨first, room, fits, unlisted, request⟩ := sound
  obtain ⟨rest, begins⟩ := @designated_first map d.mem st cmd
  have each := (@designated_total map d.mem st cmd sectors).2.1
  have steady : Steady d (designated map st cmd d.mem).reads
      (Built map base d (cmd.start st % 2 ^ 64)) := by
    intro done w built item _ _ k _
    rw [built.1.disk]
  have start : Built map base d (cmd.start st % 2 ^ 64) [] ⟨d, newRequest cmd, 0⟩ :=
    ⟨⟨rfl, rfl, rfl, rfl, rfl, rfl, rfl, nofun, fun never => absurd rfl never⟩,
      fun _ => ⟨nofun, rfl, fun never => absurd rfl never⟩⟩
  obtain ⟨result, ends, ran⟩ := rw_command_runs rfl rfl
    (block_goes block linear begins first each room) steady start
  generalize stops : (designated map st cmd d.mem).stop = stop at ends unlisted request
  cases ends with
  | whole holds =>
    exact request_sound block moves small positive sectors rfl stops fits holds ran (request rfl)
  | zeroItem holds =>
    refine declined_exactly (statusGenc scDataTransferError) ?_ (by decide)
    rw [ran, ← holds.1.disk]
    dsimp only
    unfold finish
    rw [block, if_neg (by decide), Bool.true_or, if_pos rfl]
  | unlisted other =>
    have inside := unlisted rfl
    refine ⟨fun d' succeeds => ?_, fun past => absurd inside (by omega), ?_⟩
    · cases ran.symm.trans succeeds
    · rw [ran]
      exact fun same => other (Except.error.inj same)
  | lost here => exact here.elim

def plainMap (g : BitVec 64) (n : Nat) : Option Nat :=
  if g.toNat + n ≤ 0x100000 then some (0x40000000 + g.toNat) else none

theorem plain_linear : Linear plainMap 0x40000000 where
  address := by
    intro g n p mapped
    unfold plainMap at mapped
    split at mapped <;> cases mapped
    rfl
  below := by
    intro g n mapped
    unfold plainMap at mapped
    split at mapped
    · omega
    · exact absurd rfl mapped
  shorter := by
    intro g n m mapped short
    unfold plainMap at mapped ⊢
    split at mapped
    · rw [if_pos (by omega)]
      exact nofun
    · exact absurd rfl mapped
  joined := by
    intro g n m first second
    unfold plainMap at first second ⊢
    split at first
    · split at second
      · next inside rest =>
        rw [BitVec.toNat_add, BitVec.toNat_ofNat] at rest
        rw [if_pos (by omega)]
        exact nofun
      · exact absurd rfl second
    · exact absurd rfl first

def plainStore : Store := ⟨false, 512, false, false, 0x20000, fun _ => false, fun _ _ => false⟩

def plainDisk : Disk := ⟨fun _ => 0, fun i => BitVec.ofNat 8 i, 1024⟩

def readBlocks (slba blocks : Nat) : RwCommand :=
  ⟨⟨opcRead, 7, 0x2e00, BitVec.ofNat 32 slba, 0⟩, 0x5000, BitVec.ofNat 32 (blocks - 1)⟩

end
end Nvme
