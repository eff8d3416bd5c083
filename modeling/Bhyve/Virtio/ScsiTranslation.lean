import Mathlib.Data.List.TakeWhile
import Bhyve.Lib.Accounts
import Bhyve.Virtio.ScsiRequests

namespace Vtscsi
open ByteMemory Virtio BlockProc Iov StepRuns
open Accounts (take_out)
open Vtblk (vqHasDescs viResetDev vringDescFWrite)
open List hiding Mem span

section
variable {α : Type}

theorem take_partition_iff (p : α → Bool) (l : List α) : ∀ k,
    l.take k = (l.filter p ++ l.filter fun x => !p x).take k ↔
      ∀ i j (later : i < j) (inside : j < l.length), i < k → p (l[i]) = false → p (l[j]) = false := by
  induction l with
  | nil => intro k; exact ⟨fun _ i j _ inside => absurd inside (Nat.not_lt_zero j), fun _ => rfl⟩
  | cons x rest ih =>
    intro k
    cases k with
    | zero => exact ⟨fun _ i j _ _ never => absurd never (Nat.not_lt_zero i), fun _ => rfl⟩
    | succ k =>
      cases first : p x with
      | true =>
        have moved : (x :: rest).filter p ++ ((x :: rest).filter fun y => !p y) =
            x :: (rest.filter p ++ rest.filter fun y => !p y) := by
          simp [first]
        rw [moved, take_succ_cons, take_succ_cons, cons_inj_right, ih k]
        constructor
        · intro sorted i j later inside few no
          cases i with
          | zero =>
            rw [getElem_cons_zero, first] at no
            cases no
          | succ i =>
            cases j with
            | zero => cases later
            | succ j =>
              exact sorted i j (Nat.lt_of_succ_lt_succ later) (Nat.lt_of_succ_lt_succ inside)
                (Nat.lt_of_succ_lt_succ few) no
        · intro sorted i j later inside few no
          exact sorted (i + 1) (j + 1) (Nat.succ_lt_succ later) (Nat.succ_lt_succ inside)
            (Nat.succ_lt_succ few) no
      | false =>
        constructor
        · intro same i j later inside few no
          cases found : rest.filter p with
          | nil =>
            have none_ : ∀ y ∈ rest, ¬ p y = true := List.filter_eq_nil_iff.mp found
            cases j with
            | zero => cases later
            | succ j => simpa using none_ _ (getElem_mem (Nat.lt_of_succ_lt_succ inside))
          | cons y more =>
            have here : p y = true := by
              have member : y ∈ rest.filter p := by simp [found]
              exact (List.mem_filter.mp member).2
            simp [first, found] at same
            rw [same.1, here] at first
            cases first
        · intro sorted
          have none_ : rest.filter p = [] := by
            apply List.filter_eq_nil_iff.mpr
            intro y member
            obtain ⟨j, inside, there⟩ := List.mem_iff_getElem.mp member
            have no := sorted 0 (j + 1) (Nat.succ_pos j) (Nat.succ_lt_succ inside)
              (Nat.succ_pos k) first
            rw [getElem_cons_succ, there] at no
            simp [no]
          have all : (rest.filter fun y => !p y) = rest := by
            apply List.filter_eq_self.mpr
            intro y member
            simpa using List.filter_eq_nil_iff.mp none_ y member
          simp [first, none_, all]

end

section
variable {c : Config}

theorem read_end_ge (c : Config) : 17 ≤ c.readEnd := by
  unfold Config.readEnd
  split
  · exact Nat.le_refl 17
  · omega

theorem read_end_le (c : Config) : c.readEnd ≤ c.inHeaderLen := by
  unfold Config.readEnd Config.inHeaderLen
  split
  · omega
  · exact Nat.le_refl _

theorem byte_take (buf : List Byte) {k i : Nat} (inside : i < k) :
    byte (buf.take k) i = byte buf i := by
  unfold byte
  rw [getD_eq_getElem?_getD, getD_eq_getElem?_getD, getElem?_take_of_lt inside]

theorem word_take (buf : List Byte) {k off : Nat} (inside : off + 4 ≤ k) :
    word (buf.take k) off = word buf off :=
  read32_congr fun i bound => byte_take buf (by omega)

theorem get_lun_take (buf : List Byte) {k lun : Nat} (inside : lun + 4 ≤ k) :
    getLun (buf.take k) lun = getLun buf lun := by
  unfold getLun
  rw [byte_take buf (by omega), byte_take buf (by omega)]

theorem read_header_take (buf : List Byte) {k : Nat} (enough : c.readEnd ≤ k) :
    readHeader c (buf.take k) = readHeader c buf := by
  have least := read_end_ge c
  unfold readHeader
  have same : (buf.take k).length < c.readEnd ↔ buf.length < c.readEnd := by
    rw [length_take]
    omega
  by_cases short : buf.length < c.readEnd
  · rw [if_pos short, if_pos (same.mpr short)]
  · rw [if_neg short, if_neg (mt same.mp short), get_lun_take buf (by omega),
      word_take buf (by omega), byte_take buf (by omega)]
    congr 2
    apply map_congr_left
    intro i member
    apply byte_take
    have bound := List.mem_range.mp member
    have full : c.readEnd = 19 + c.cdbSize := if_neg (by omega)
    omega

end

section
variable {c : Config} {mem : Mem} {iovIn iovOut : List Iovec} {answer : Answer} {heap : Mem}

def reach (c : Config) (iovOut : List Iovec) : Nat := min c.outHeaderLen (firstLen iovOut)

def stored (c : Config) (iovIn iovOut : List Iovec) (answer : Answer) : Nat :=
  if countIov iovIn ≤ c.inHeaderLen ∧ c.outHeaderLen < countIov iovOut then
    min answer.extDataFilled.toNat (countIov iovOut - c.outHeaderLen)
  else 0

/-- The bytes behind the response header, where no data goes to the device. -/
def room (c : Config) (iovIn iovOut : List Iovec) : Nat :=
  if countIov iovIn ≤ c.inHeaderLen then countIov iovOut - c.outHeaderLen else 0

theorem stored_min (c : Config) (iovIn iovOut : List Iovec) (answer : Answer) :
    stored c iovIn iovOut answer = min answer.extDataFilled.toNat (room c iovIn iovOut) := by
  unfold stored room
  split <;> split <;> omega

def dataOf (c : Config) (r w : List Nat) : DataFlow × List Nat :=
  if r.drop c.inHeaderLen ≠ [] then (.toDevice, r.drop c.inHeaderLen)
  else if w.drop c.outHeaderLen ≠ [] then (.toGuest, w.drop c.outHeaderLen)
  else (.none, [])

theorem header_found_iff :
    (readHeader c (iovToBuf mem (truncateIov iovIn c.inHeaderLen))).isSome = true ↔
      c.readEnd ≤ firstLen iovIn := by
  have within := read_end_le c
  have length : (iovToBuf mem (truncateIov iovIn c.inHeaderLen)).length =
      min c.inHeaderLen (firstLen iovIn) := by
    rw [iov_to_buf_length, count_truncate]
  unfold readHeader
  rw [length]
  by_cases short : min c.inHeaderLen (firstLen iovIn) < c.readEnd
  · rw [if_pos short]
    constructor
    · intro never
      cases never
    · intro enough
      omega
  · rw [if_neg short]
    constructor
    · intro _
      omega
    · intro _
      rfl

theorem header_of_bytes (enough : c.readEnd ≤ firstLen iovIn) (more : List Nat) :
    readHeader c (iovToBuf mem (truncateIov iovIn c.inHeaderLen)) =
      readHeader c ((places iovIn ++ more).map mem) := by
  have within := read_end_le c
  have count := first_le_count iovIn
  have start : iovToBuf mem (truncateIov iovIn c.inHeaderLen) =
      ((places iovIn ++ more).map mem).take (min c.inHeaderLen (firstLen iovIn)) := by
    rw [iovToBuf, places_truncate, map_take, map_append,
      take_append_of_le_length]
    rw [length_map, places_length]
    omega
  rw [start]
  exact read_header_take _ (by omega)

theorem seek_some_iff (iov : List Iovec) (seek : Nat) :
    seekIov iov seek ≠ [] ↔ (places iov).drop seek ≠ [] := by
  apply not_congr
  rw [seek_nil_iff, drop_eq_nil_iff, places_length]

theorem request_handled {header : Header}
    (found : readHeader c (iovToBuf mem (truncateIov iovIn c.inHeaderLen)) = some header) :
    ∃ done, requestHandle c mem iovIn iovOut answer heap = some done ∧ done.header = header ∧
      (done.flow, places done.extData) = dataOf c (places iovIn) (places iovOut) ∧
      done.response =
        ((List.range c.outHeaderLen).map (cmdWr c answer heap)).take (reach c iovOut) ∧
      done.written = stored c iovIn iovOut answer + reach c iovOut ∧
      done.nxferred = BitVec.ofNat 32 (c.outHeaderLen + answer.extDataFilled.toNat) := by
  unfold requestHandle
  dsimp only
  rw [found]
  have back : ∀ m : Mem, (bufToIov m ((List.range c.outHeaderLen).map (cmdWr c answer heap))
      (truncateIov iovOut c.outHeaderLen) 0).2 = reach c iovOut := by
    intro m
    rw [buf_to_iov_count, count_truncate, length_map, length_range, reach]
    omega
  refine ⟨_, rfl, rfl, ?_, ?_, ?_, rfl⟩
  · unfold dataOf
    by_cases toDevice : seekIov iovIn c.inHeaderLen ≠ []
    · rw [if_pos toDevice, if_pos toDevice, if_pos ((seek_some_iff iovIn _).mp toDevice), places_seek]
    · rw [if_neg toDevice, if_neg toDevice, if_neg (mt (seek_some_iff iovIn _).mpr toDevice)]
      by_cases toGuest : seekIov iovOut c.outHeaderLen ≠ []
      · rw [if_pos toGuest, if_pos ((seek_some_iff iovOut _).mp toGuest), places_seek]
      · have nothing : seekIov iovOut c.outHeaderLen = [] := not_not.mp toGuest
        rw [if_neg toGuest, if_neg (mt (seek_some_iff iovOut _).mpr toGuest), nothing]
        rfl
  · rw [back]
  · rw [back]
    have inside := seek_nil_iff iovIn c.inHeaderLen
    have outside := seek_nil_iff iovOut c.outHeaderLen
    by_cases toDevice : seekIov iovIn c.inHeaderLen = []
    · by_cases toGuest : seekIov iovOut c.outHeaderLen = []
      · have moved : stored c iovIn iovOut answer = 0 :=
          if_neg fun both => Nat.not_le.mpr both.2 (outside.mp toGuest)
        simp [moved, toDevice, toGuest]
      · have moved : stored c iovIn iovOut answer =
            min answer.extDataFilled.toNat (countIov iovOut - c.outHeaderLen) :=
          if_pos ⟨inside.mp toDevice, Nat.lt_of_not_le (mt outside.mpr toGuest)⟩
        simp [moved, toDevice, toGuest, places_seek, places_length]
    · have moved : stored c iovIn iovOut answer = 0 :=
        if_neg fun both => toDevice (inside.mpr both.1)
      simp [moved, toDevice]

theorem data_of_iff {a b late w : List Nat} (all : b.length = w.length + late.length)
    (none_ : late = [] → b = w) : dataOf c (a ++ late) w = dataOf c a b ↔
      late = [] ∨ ((a ++ late).length ≤ c.inHeaderLen ∧ b.length ≤ c.outHeaderLen) := by
  constructor
  · intro same
    by_cases empty : late = []
    · exact .inl empty
    have some_ : 0 < late.length := List.length_pos_iff.mpr empty
    refine .inr ?_
    have long : (a ++ late).length = a.length + late.length := length_append
    unfold dataOf at same
    by_cases toDevice : (a ++ late).drop c.inHeaderLen ≠ []
    · rw [if_pos toDevice] at same
      have past : ¬ (a ++ late).length ≤ c.inHeaderLen := mt List.drop_eq_nil_iff.mpr toDevice
      split at same
      · have length := congrArg List.length (Prod.mk.inj same).2
        rw [length_drop, length_drop] at length
        omega
      · split at same
        · cases (Prod.mk.inj same).1
        · cases (Prod.mk.inj same).1
    · have within : (a ++ late).length ≤ c.inHeaderLen := List.drop_eq_nil_iff.mp (not_not.mp toDevice)
      refine ⟨within, ?_⟩
      have short : a.drop c.inHeaderLen = [] := drop_eq_nil_of_le (by omega)
      rw [if_neg toDevice, if_neg (not_not_intro short)] at same
      by_contra past
      have toGuest : b.drop c.outHeaderLen ≠ [] := mt List.drop_eq_nil_iff.mp past
      split at same
      · have length := congrArg List.length (Prod.mk.inj same).2
        rw [length_drop, length_drop] at length
        omega
      · cases (Prod.mk.inj same).1
  · rintro (empty | ⟨within, inside⟩)
    · rw [none_ empty, empty, append_nil]
    · have long : (a ++ late).length = a.length + late.length := length_append
      unfold dataOf
      rw [drop_eq_nil_of_le within, drop_eq_nil_of_le (by omega : w.length ≤ _),
        drop_eq_nil_of_le (by omega : a.length ≤ _), drop_eq_nil_of_le inside]

theorem copyInto_before (m : Mem) {dst n x : Nat} (src : Mem) (before : x < dst) :
    copyInto m dst n src x = m x := by
  exact if_neg fun inside => Nat.not_le.mpr before inside.1

theorem write32_inside (m k : Mem) {a x : Nat} (v : BitVec 32) (low : a ≤ x) (high : x < a + 4) :
    write32 m a v x = write32 k a v x := by
  have which : x = a ∨ x = a + 1 ∨ x = a + 2 ∨ x = a + 3 := by omega
  rcases which with here | here | here | here
  · simp [here, write32, write16, write8]
  · simp [here, write32, write16, write8]
  · simp [here, write32, write16, write8]
  · simp [here, write32, write16, write8]

theorem response_determined_iff :
    (∀ other : Mem, ((List.range c.outHeaderLen).map (cmdWr c answer other)).take (reach c iovOut) =
        ((List.range c.outHeaderLen).map (cmdWr c answer heap)).take (reach c iovOut)) ↔
      reach c iovOut ≤ if answer.err then 0 else 8 := by
  have within : reach c iovOut ≤ c.outHeaderLen := Nat.min_le_left _ _
  have cut : ∀ other : Mem,
      ((List.range c.outHeaderLen).map (cmdWr c answer other)).take (reach c iovOut) =
        (List.range (reach c iovOut)).map (cmdWr c answer other) := by
    intro other
    rw [← map_take, take_range, Nat.min_eq_left within]
  constructor
  · intro same
    by_contra long
    have bound : (if answer.err then 0 else 8) < reach c iovOut := Nat.lt_of_not_le long
    have left : ∀ other : Mem, cmdWr c answer other (if answer.err then 0 else 8) =
        other (if answer.err then 0 else 8) := by
      intro other
      unfold cmdWr
      cases answer.err with
      | true => simp [write8]
      | false => simp [write8, write16, write32, copyInto]
    have here := same fun _ => heap (if answer.err then 0 else 8) + 1
    rw [cut, cut, map_inj_left] at here
    have equal := here _ (List.mem_range.mpr bound)
    rw [left, left] at equal
    simp at equal
  · intro short other
    rw [cut, cut]
    apply map_congr_left
    intro i member
    have bound := List.mem_range.mp member
    unfold cmdWr
    cases failed : answer.err with
    | true =>
      rw [failed] at short
      simp at short
      omega
    | false =>
      rw [failed] at short
      have low : i < 8 := Nat.lt_of_lt_of_le bound short
      simp only [Bool.false_eq_true, if_false]
      rw [copyInto_before _ _ (by omega), copyInto_before _ _ (by omega),
        write8_other _ _ (by omega), write8_other _ _ (by omega), write8_other _ _ (by omega),
        write8_other _ _ (by omega)]
      by_cases first : i < 4
      · rw [write32_other _ _ (.inl first), write32_other _ _ (.inl first)]
        exact write32_inside _ _ _ (Nat.zero_le i) (by omega)
      · exact write32_inside _ _ _ (by omega) (by omega)

end

def flatR (descs : List VirtioDesc) : List Nat := places ((descs.filter readable).map iovOf)

def flatW (descs : List VirtioDesc) : List Nat :=
  places ((descs.filter fun v => !readable v).map iovOf)

/-- The readable bytes that come behind a writable descriptor. -/
def late (descs : List VirtioDesc) : List Nat := flatR (descs.dropWhile readable)

structure Split (req : Request) : Prop where
  reads : req.iovIn = (req.descs.takeWhile readable).map iovOf
  writes : req.iovOut = (req.descs.dropWhile readable).map iovOf

theorem places_append (a b : List Iovec) : places (a ++ b) = places a ++ places b :=
  flatMap_append

theorem filter_take_while (p : VirtioDesc → Bool) (descs : List VirtioDesc) :
    (descs.takeWhile p).filter p = descs.takeWhile p := by
  apply List.filter_eq_self.mpr
  intro v member
  exact mem_takeWhile_imp member

theorem flat_read {req : Request} (split : Split req) :
    flatR req.descs = places req.iovIn ++ late req.descs := by
  have whole := takeWhile_append_dropWhile (p := readable) (l := req.descs)
  rw [split.reads, late, flatR, flatR, ← places_append, ← map_append]
  congr 2
  conv_lhs => rw [← whole]
  rw [filter_append, filter_take_while]

theorem flat_write (descs : List VirtioDesc) : flatW descs = flatW (descs.dropWhile readable) := by
  have whole := takeWhile_append_dropWhile (p := readable) (l := descs)
  have none_ : ((descs.takeWhile readable).filter fun v => !readable v) = [] := by
    apply List.filter_eq_nil_iff.mpr
    intro v member
    simp [mem_takeWhile_imp member]
  unfold flatW
  conv_lhs => rw [← whole]
  rw [filter_append, none_, nil_append]

theorem flat_lengths (descs : List VirtioDesc) :
    (places (descs.map iovOf)).length = (flatW descs).length + (flatR descs).length := by
  induction descs with
  | nil => rfl
  | cons v rest ih =>
    unfold flatW flatR at ih ⊢
    cases here : readable v with
    | true =>
      simp [here, places_cons, ih]
      omega
    | false =>
      simp [here, places_cons, ih]
      omega

theorem flat_all_written (descs : List VirtioDesc) (none_ : flatR descs = []) :
    places (descs.map iovOf) = flatW descs := by
  induction descs with
  | nil => rfl
  | cons v rest ih =>
    unfold flatR at ih none_
    unfold flatW at ih ⊢
    cases here : readable v with
    | true =>
      simp only [here, filter_cons_of_pos, map_cons, places_cons, append_eq_nil_iff]
        at none_
      obtain ⟨empty, others⟩ := none_
      simp [here, places_cons, empty, ih others]
    | false =>
      simp only [here, Bool.false_eq_true, not_false_eq_true, filter_cons_of_neg] at none_
      simp [here, places_cons, ih none_]

section
variable {c : Config} {mem : Mem} {req : Request} {answer : Answer} {heap : Mem}

def commandOf (c : Config) (mem : Mem) (descs : List VirtioDesc) :
    Option (Header × DataFlow × List Nat) :=
  (readHeader c ((flatR descs).map mem)).map fun header =>
    (header, dataOf c (flatR descs) (flatW descs))

/-- The command is that of the bytes, the length returned is what was written, and the response is
    the same whatever malloc left. -/
structure RequestTranslated (c : Config) (mem : Mem) (req : Request) (answer : Answer)
    (done : Handled) : Prop where
  command : commandOf c mem req.descs = some (done.header, done.flow, places done.extData)
  length : done.nxferred.toNat = done.written
  determined : ∀ other : Mem, (requestHandle c mem req.iovIn req.iovOut answer other).map
    Handled.response = some done.response

/-- The header is read whole, the data is where the flattened strings have it, the guest gets no
    byte of the response that nothing has set, and the length returned wraps to what is stored:
    it counts a whole response header, which the guest has no room for. -/
structure WellFormedRequest (c : Config) (req : Request) (answer : Answer) : Prop where
  header : c.readEnd ≤ firstLen req.iovIn
  order : late req.descs = [] ∨
    ((flatR req.descs).length ≤ c.inHeaderLen ∧ countIov req.iovOut ≤ c.outHeaderLen)
  determined : reach c req.iovOut ≤ if answer.err then 0 else 8
  wraps : c.outHeaderLen + answer.extDataFilled.toNat =
    2 ^ 32 + reach c req.iovOut + room c req.iovIn req.iovOut

theorem wraps_iff {iovIn iovOut : List Iovec} (small : c.senseSize ≤ 96)
    (few : reach c iovOut ≤ 8) : (c.outHeaderLen + answer.extDataFilled.toNat) % 2 ^ 32 =
        stored c iovIn iovOut answer + reach c iovOut ↔
      c.outHeaderLen + answer.extDataFilled.toNat =
        2 ^ 32 + reach c iovOut + room c iovIn iovOut := by
  have bound := answer.extDataFilled.isLt
  have least := stored_min c iovIn iovOut answer
  unfold Config.outHeaderLen at *
  omega

theorem command_iff (split : Split req) (enough : c.readEnd ≤ firstLen req.iovIn) {header : Header}
    (found : readHeader c (iovToBuf mem (truncateIov req.iovIn c.inHeaderLen)) = some header) :
    commandOf c mem req.descs =
        some (header, dataOf c (places req.iovIn) (places req.iovOut)) ↔
      late req.descs = [] ∨
        ((flatR req.descs).length ≤ c.inHeaderLen ∧ countIov req.iovOut ≤ c.outHeaderLen) := by
  have whole := flat_read split
  have same : readHeader c ((flatR req.descs).map mem) = some header := by
    rw [whole, ← header_of_bytes enough, found]
  have lengths : (places req.iovOut).length = (flatW req.descs).length + (late req.descs).length := by
    rw [split.writes, flat_write]
    exact flat_lengths _
  have all : late req.descs = [] → places req.iovOut = flatW req.descs := by
    intro none_
    rw [split.writes, flat_write]
    exact flat_all_written _ none_
  have data := data_of_iff (c := c) (a := places req.iovIn) lengths all
  rw [← whole, places_length] at data
  rw [← data, commandOf, same, Option.map_some, Option.some_inj, Prod.mk_right_inj]

theorem request_translated_iff (split : Split req) (small : c.senseSize ≤ 96) :
    (∃ done, requestHandle c mem req.iovIn req.iovOut answer heap = some done ∧
        RequestTranslated c mem req answer done) ↔ WellFormedRequest c req answer := by
  by_cases enough : c.readEnd ≤ firstLen req.iovIn
  · obtain ⟨header, found⟩ := Option.isSome_iff_exists.mp (header_found_iff.mpr enough)
    obtain ⟨done, ran, head, data, response, written, nxferred⟩ :=
      @request_handled c mem req.iovIn req.iovOut answer heap header found
    have command : commandOf c mem req.descs = some (done.header, done.flow, places done.extData) ↔
        late req.descs = [] ∨
          ((flatR req.descs).length ≤ c.inHeaderLen ∧ countIov req.iovOut ≤ c.outHeaderLen) := by
      rw [head, data]
      exact command_iff split enough found
    have length : done.nxferred.toNat = done.written ↔
        (c.outHeaderLen + answer.extDataFilled.toNat) % 2 ^ 32 =
          stored c req.iovIn req.iovOut answer + reach c req.iovOut := by
      rw [nxferred, written, BitVec.toNat_ofNat]
    have short : (reach c req.iovOut ≤ if answer.err then 0 else 8) → reach c req.iovOut ≤ 8 := by
      intro few
      split at few <;> omega
    have determined : (∀ other : Mem, (requestHandle c mem req.iovIn req.iovOut answer other).map
        Handled.response = some done.response) ↔
          reach c req.iovOut ≤ if answer.err then 0 else 8 := by
      rw [response, ← response_determined_iff]
      apply forall_congr'
      intro other
      obtain ⟨again, ran', -, -, response', -⟩ :=
        @request_handled c mem req.iovIn req.iovOut answer other header found
      rw [ran', Option.map_some, response', Option.some_inj]
    constructor
    · rintro ⟨done', ran', translated⟩
      rw [ran] at ran'
      cases ran'
      have few := determined.mp translated.determined
      exact ⟨enough, command.mp translated.command, few,
        (wraps_iff small (short few)).mp (length.mp translated.length)⟩
    · intro proper
      have whole := (wraps_iff small (short proper.determined)).mpr proper.wraps
      exact ⟨done, ran, command.mpr proper.order, length.mpr whole,
        determined.mpr proper.determined⟩
  · constructor
    · rintro ⟨done, ran, -⟩
      unfold requestHandle at ran
      dsimp only at ran
      split at ran
      · cases ran
      · next header found =>
        exact absurd (header_found_iff.mp (Option.isSome_iff_exists.mpr ⟨header, found⟩)) enough
    · intro proper
      exact absurd proper.header enough

def tagged (descs : List VirtioDesc) : List (Bool × Nat) :=
  descs.flatMap fun v => (span v.addr.toNat v.len.toNat).map fun place => (readable v, place)

def seen (buf : List Byte) : Nat := if word buf 0 = virtioScsiTTmf then 24 else 4

/-- What is looked at are the first of the readable bytes followed by the writable ones, and the
    length returned is what was written. -/
structure ControlTranslated (mem : Mem) (descs : List VirtioDesc) (done : Controlled) : Prop where
  order : (tagged descs).take (seen (iovToBuf mem (descs.map iovOf))) =
    ((tagged descs).filter Prod.fst ++ (tagged descs).filter fun b => !b.1).take
      (seen (iovToBuf mem (descs.map iovOf)))
  length : done.iolen = done.written

structure WellFormedControl (mem : Mem) (descs : List VirtioDesc) : Prop where
  type : 4 ≤ countIov (descs.map iovOf)
  tmf : word (iovToBuf mem (descs.map iovOf)) 0 = virtioScsiTTmf → 25 ≤ countIov (descs.map iovOf)
  order : ∀ i j (later : i < j) (inside : j < (tagged descs).length),
    i < seen (iovToBuf mem (descs.map iovOf)) →
      ((tagged descs)[i]).1 = false → ((tagged descs)[j]).1 = false

theorem control_chain_some_iff (descs : List VirtioDesc) (taskStatus : Byte) :
    (controlChain mem (descs.map iovOf) taskStatus).isSome = true ↔
      4 ≤ countIov (descs.map iovOf) ∧
        (word (iovToBuf mem (descs.map iovOf)) 0 = virtioScsiTTmf →
          25 ≤ countIov (descs.map iovOf)) := by
  have length := iov_to_buf_length mem (descs.map iovOf)
  unfold controlChain controlHandle tmfHandle
  rw [length]
  by_cases type : countIov (descs.map iovOf) < 4
  · simp [type]
  · by_cases isTmf : word (iovToBuf mem (descs.map iovOf)) 0 = virtioScsiTTmf
    · by_cases short : countIov (descs.map iovOf) < 25
      · simp [type, isTmf, short]
      · simp [type, isTmf, short]
        omega
    · simp [type, isTmf]
      omega

theorem control_chain_length {descs : List VirtioDesc} {taskStatus : Byte} {done : Controlled}
    (ran : controlChain mem (descs.map iovOf) taskStatus = some done) :
    done.iolen = done.written := by
  have length := iov_to_buf_length mem (descs.map iovOf)
  unfold controlChain at ran
  split at ran
  · cases ran
  · next buf iolen task handled =>
    cases ran
    have kept : buf.length = countIov (descs.map iovOf) ∧ iolen ≤ buf.length := by
      unfold controlHandle at handled
      split at handled
      · cases handled
      split at handled
      · unfold tmfHandle at handled
        split at handled
        · cases handled
        · cases handled
          rw [length_set, length]
          omega
      · cases handled
        exact ⟨length, Nat.zero_le _⟩
    dsimp only
    rw [buf_to_iov_count, length_drop]
    omega

theorem control_translated_iff (descs : List VirtioDesc) (taskStatus : Byte) :
    (∃ done, controlChain mem (descs.map iovOf) taskStatus = some done ∧
        ControlTranslated mem descs done) ↔ WellFormedControl mem descs := by
  have order := take_partition_iff Prod.fst (tagged descs) (seen (iovToBuf mem (descs.map iovOf)))
  constructor
  · rintro ⟨done, ran, translated⟩
    obtain ⟨type, tmf⟩ := (control_chain_some_iff descs taskStatus).mp (by rw [ran]; rfl)
    exact ⟨type, tmf, order.mp translated.order⟩
  · intro proper
    obtain ⟨done, ran⟩ := Option.isSome_iff_exists.mp
      ((control_chain_some_iff descs taskStatus).mpr ⟨proper.type, proper.tmf⟩)
    exact ⟨done, ran, order.mpr proper.order, control_chain_length ran⟩

end

section
variable {s s' : Softc}

def Translated (s : Softc) : Event → Prop
  | .controlq descs taskStatus =>
      vqHasDescs s.ctlVq = true → ∀ done,
        controlChain s.mem ((getchain s.ctlVq descs).iov.map iovOf) taskStatus = some done →
          ControlTranslated s.mem (getchain s.ctlVq descs).iov done
  | .handle j answer heap =>
      ∀ req done, s.running[j]? = some req →
        requestHandle s.config s.mem req.iovIn req.iovOut answer heap = some done →
          RequestTranslated s.config s.mem req answer done
  | _ => True

/-- The step stays within its arrays and buffers, and does with the chain what its bytes ask for. -/
def RunsTranslated (s : Softc) (e : Event) : Prop := (∃ s', step s e = .ok s') ∧ Translated s e

def WellFormed (s : Softc) : Event → Prop
  | .controlq descs _ =>
      vqHasDescs s.ctlVq = true → inRange (getchain s.ctlVq descs) = true ∧
        WellFormedControl s.mem (getchain s.ctlVq descs).iov
  | .requestq descs => vqHasDescs s.reqVq = true → inRange (getchain s.reqVq descs) = true
  | .handle j answer _ => ∀ req, s.running[j]? = some req → WellFormedRequest s.config req answer
  | _ => True

def Softc.live (s : Softc) : List Request := s.requests ++ s.running ++ s.finished.map Prod.fst

/-- Every chain that was taken has been released once or is with one live request. -/
structure Account (s : Softc) : Prop where
  config : s.config.senseSize ≤ 96
  split : ∀ req ∈ s.live, Split req
  once : (s.released ++ s.live.map Request.chain).Perm (List.range s.taken)

theorem ready_chain {vq : VqueueInfo} {descs : Descriptors} (ready : vqHasDescs vq = true)
    (fine : inRange (getchain vq descs) = true) : ∃ idx, (getchain vq descs).pidx = some idx := by
  unfold vqHasDescs at ready
  have differ : vq.lastAvail ≠ vq.avail.idx := by
    simp at ready
    exact ready.2
  have some_ : (vq.avail.idx - vq.lastAvail).toNat ≠ 0 := by bv_omega
  unfold inRange getchain vqGetchain at fine
  unfold getchain vqGetchain
  rw [if_neg some_] at fine ⊢
  split at fine
  · simp at fine
  · next few =>
    rw [if_neg few]
    exact ⟨_, rfl⟩

theorem request_split (idx : BitVec 16) (iov : List VirtioDesc) (chain : Nat) :
    Split (requestOf idx iov chain) := by
  have whole := takeWhile_append_dropWhile (p := readable) (l := iov)
  have before : iov.take (iov.takeWhile readable).length = iov.takeWhile readable := by
    conv_lhs => rw [← whole]
    exact take_left' (by rw [whole])
  have behind : iov.drop (iov.takeWhile readable).length = iov.dropWhile readable := by
    conv_lhs => rw [← whole]
    exact drop_left' (by rw [whole])
  exact ⟨congrArg _ before, congrArg _ behind⟩

section
variable (account : Account s)
include account

theorem account_of_perm (config : s'.config = s.config)
    (perm : s'.live.Perm s.live) (released : s'.released = s.released)
    (taken : s'.taken = s.taken) : Account s' where
  config := config ▸ account.config
  split req member := account.split req (perm.mem_iff.mp member)
  once := by
    rw [released, taken]
    exact ((perm.map Request.chain).append_left _).trans account.once

theorem requestq_account {descs : Descriptors}
    (ran : requestqTurn s descs = .ok s') : Account s' := by
  unfold requestqTurn at ran
  dsimp only at ran
  split at ran
  · cases ran
  split at ran
  · cases ran
  · next idx _ =>
    cases ran
    have new := request_split idx (getchain s.reqVq descs).iov s.taken
    have perm : ((s.requests ++ [requestOf idx (getchain s.reqVq descs).iov s.taken]) ++ s.running ++
        s.finished.map Prod.fst).Perm
          (requestOf idx (getchain s.reqVq descs).iov s.taken :: s.live) :=
      ((perm_append_singleton _ s.requests).append_right s.running).append_right _
    refine ⟨account.config, ?_, ?_⟩
    · intro req member
      rcases List.mem_cons.mp (perm.mem_iff.mp member) with here | before
      · rw [here]
        exact new
      · exact account.split req before
    · refine ((perm.map Request.chain).append_left s.released).trans ?_
      rw [range_succ]
      refine List.perm_middle.trans ?_
      exact (account.once.cons s.taken).trans (perm_append_singleton s.taken _).symm

theorem controlq_account {descs : Descriptors} {taskStatus : Byte}
    (ran : controlqTurn s descs taskStatus = .ok s') : Account s' := by
  unfold controlqTurn at ran
  dsimp only at ran
  split at ran
  · cases ran
  split at ran
  · cases ran
    refine ⟨account.config, account.split, ?_⟩
    rw [range_succ, List.append_assoc]
    refine (List.perm_append_comm.append_left s.released).trans ?_
    rw [← List.append_assoc]
    exact account.once.append_right [s.taken]
  · cases ran

theorem take_account : Account (takeRequest s) := by
  unfold takeRequest
  split
  · exact account
  · next req rest queued =>
    split
    · refine account_of_perm account rfl ?_ rfl rfl
      unfold Softc.live
      rw [queued, ← List.append_assoc]
      exact (perm_append_singleton req _).append_right _
    · exact account

theorem handle_account {j : Nat} {answer : Answer} {heap : Mem}
    (ran : handleRequest s j answer heap = .ok s') : Account s' := by
  unfold handleRequest at ran
  split at ran
  · cases ran
    exact account
  · next req found =>
    split at ran
    · cases ran
    · next done _ =>
      cases ran
      refine account_of_perm account rfl ?_ rfl rfl
      have out := take_out found
      unfold Softc.live
      rw [map_append, map_singleton, ← List.append_assoc]
      refine (perm_append_singleton req _).trans ?_
      exact (List.perm_middle.symm.trans (out.append_left s.requests)).append_right
        (s.finished.map Prod.fst)

theorem release_account (j : Nat) : Account (releaseRequest s j) := by
  unfold releaseRequest
  cases found : s.finished[j]? with
  | none => exact account
  | some entry =>
    obtain ⟨req, iolen⟩ := entry
    have out := take_out found
    have perm : (req :: (s.requests ++ s.running ++ (s.finished.eraseIdx j).map Prod.fst)).Perm
        s.live := List.perm_middle.symm.trans ((out.map Prod.fst).append_left _)
    have before : ∀ req' ∈ s.requests ++ s.running ++ (s.finished.eraseIdx j).map Prod.fst,
        Split req' := by
      intro req' member
      exact account.split req' (perm.mem_iff.mp (mem_cons_of_mem _ member))
    refine ⟨account.config, before, ?_⟩
    show (s.released ++ [req.chain] ++
      (s.requests ++ s.running ++ (s.finished.eraseIdx j).map Prod.fst).map Request.chain).Perm _
    rw [List.append_assoc]
    exact ((perm.map Request.chain).append_left s.released).trans account.once

end

theorem step_account (s : Softc) (e : Event) (s' : Softc) (account : Account s)
    (ran : step s e = .ok s') : Account s' := by
  cases e with
  | driver ctl req mem =>
    cases ran
    exact ⟨account.config, account.split, account.once⟩
  | controlq descs taskStatus =>
    simp only [step] at ran
    split at ran
    · exact controlq_account account ran
    · cases ran
      exact account
  | requestq descs =>
    simp only [step] at ran
    split at ran
    · exact requestq_account account ran
    · cases ran
      exact account
  | take =>
    cases ran
    exact take_account account
  | handle j answer heap => exact handle_account account ran
  | release j =>
    cases ran
    exact release_account account j
  | reset =>
    cases ran
    exact ⟨Nat.le_refl 96, account.split, account.once⟩
  | init ctl req ctlUsed reqUsed =>
    cases ran
    exact ⟨account.config, account.split, account.once⟩

theorem request_step_iff (account : Account s) (j : Nat) (answer : Answer) (heap : Mem) :
    RunsTranslated s (.handle j answer heap) ↔ WellFormed s (.handle j answer heap) := by
  unfold RunsTranslated Translated WellFormed
  simp only [step, handleRequest]
  cases found : s.running[j]? with
  | none => simp
  | some req =>
    have member : req ∈ s.live :=
      mem_append_left _ (mem_append_right _ (mem_of_getElem? found))
    have agree :=
      @request_translated_iff s.config s.mem req answer heap (account.split req member)
        account.config
    simp only [Option.some.injEq, forall_eq']
    rw [← agree]
    cases ran : requestHandle s.config s.mem req.iovIn req.iovOut answer heap with
    | none => simp
    | some done =>
      constructor
      · rintro ⟨-, all⟩
        exact ⟨done, rfl, all req done rfl ran⟩
      · rintro ⟨done', same, here⟩
        cases same
        refine ⟨⟨_, rfl⟩, ?_⟩
        intro req' done' same ran'
        cases same
        rw [ran] at ran'
        cases ran'
        exact here

theorem control_step_iff (descs : Descriptors) (taskStatus : Byte) :
    RunsTranslated s (.controlq descs taskStatus) ↔ WellFormed s (.controlq descs taskStatus) := by
  unfold RunsTranslated Translated WellFormed
  simp only [step]
  by_cases ready : vqHasDescs s.ctlVq = true
  · have agree := @control_translated_iff s.mem (getchain s.ctlVq descs).iov taskStatus
    simp only [ready, forall_const]
    rw [← agree]
    unfold controlqTurn
    by_cases fine : inRange (getchain s.ctlVq descs) = true
    · obtain ⟨idx, head⟩ := ready_chain ready fine
      cases ran : controlChain s.mem ((getchain s.ctlVq descs).iov.map iovOf) taskStatus with
      | none => simp [fine, head, ran]
      | some done => simp [fine, head, ran]
    · simp [fine]
  · simp [ready]

theorem take_step_iff (descs : Descriptors) :
    RunsTranslated s (.requestq descs) ↔ WellFormed s (.requestq descs) := by
  unfold RunsTranslated Translated WellFormed
  simp only [step]
  by_cases ready : vqHasDescs s.reqVq = true
  · rw [if_pos ready]
    unfold requestqTurn
    by_cases fine : inRange (getchain s.reqVq descs) = true
    · obtain ⟨idx, head⟩ := ready_chain ready fine
      simp [fine, head]
    · simp [fine, ready]
  · simp [ready]

theorem step_right_iff (s : Softc) (e : Event) (account : Account s) :
    RunsTranslated s e ↔ WellFormed s e := by
  cases e with
  | controlq descs taskStatus => exact control_step_iff descs taskStatus
  | requestq descs => exact take_step_iff descs
  | handle j answer heap => exact request_step_iff account j answer heap
  | driver ctl req mem => exact ⟨fun _ => trivial, fun _ => ⟨⟨_, rfl⟩, trivial⟩⟩
  | take => exact ⟨fun _ => trivial, fun _ => ⟨⟨_, rfl⟩, trivial⟩⟩
  | release j => exact ⟨fun _ => trivial, fun _ => ⟨⟨_, rfl⟩, trivial⟩⟩
  | reset => exact ⟨fun _ => trivial, fun _ => ⟨⟨_, rfl⟩, trivial⟩⟩
  | init ctl req ctlUsed reqUsed => exact ⟨fun _ => trivial, fun _ => ⟨⟨_, rfl⟩, trivial⟩⟩

theorem init_account (mem : Mem) (avail : VringAvail) (used : VringUsed) :
    Account (pciVtscsiInit mem avail used) where
  config := Nat.zero_le 96
  split req member := by cases member
  once := List.Perm.refl _

theorem run_account {mem : Mem} {avail : VringAvail} {used : VringUsed} {events : List Event}
    (ran : attempts step (pciVtscsiInit mem avail used) events = .ok s) : Account s := by
  have start := init_account mem avail used
  rcases attempts_ok_or_fails step_account events _ start with ⟨s', ran', account⟩ | fails
  · rw [ran] at ran'
    cases ran'
    exact account
  · obtain ⟨_, _, _, _, _, _, stopped⟩ := fails
    rw [ran] at stopped
    cases stopped

/-- A run is right in all its steps exactly where the chains that are taken have few enough
    descriptors and those that are handled are proper; and in every run each chain that was taken
    has been released once or is with a worker or in the queue. -/
theorem requests_translated_iff (mem : Mem) (avail : VringAvail) (used : VringUsed)
    (events : List Event) :
    (AlongAttempts step RunsTranslated (pciVtscsiInit mem avail used) events ↔
        AlongAttempts step WellFormed (pciVtscsiInit mem avail used) events) ∧
      ∀ s, attempts step (pciVtscsiInit mem avail used) events = .ok s →
        (s.released ++ s.live.map Request.chain).Perm (List.range s.taken) := by
  have start := init_account mem avail used
  constructor
  · exact along_attempts_iff step_account step_right_iff events _ start
  · intro s ran
    exact (run_account ran).once

def noMemory : Mem := fun _ => 0

def oneAvail : VringAvail := ⟨0, 1, fun _ => 0⟩

def freshUsed : VringUsed := ⟨0, 0, fun _ => ⟨0, 0⟩⟩

def plainRequest : Descriptors where
  desc i := if i = 0 then ⟨0, 51, 1, 1⟩ else ⟨64, 108, 2, 0⟩
  indirect _ _ := ⟨0, 0, 0, 0⟩

def plainTask : Descriptors where
  desc i := if i = 0 then ⟨0, 24, 1, 1⟩ else ⟨64, 1, 2, 0⟩
  indirect _ _ := ⟨0, 0, 0, 0⟩

def good : Answer := ⟨false, 0, 0, 0, noMemory, 0, noMemory⟩

def opened : List Event := [.reset, .init oneAvail oneAvail freshUsed freshUsed]

theorem requests_translated_task :
    AlongAttempts step RunsTranslated (pciVtscsiInit noMemory oneAvail freshUsed)
      (opened ++ [.controlq plainTask 0]) := by
  refine (requests_translated_iff noMemory oneAvail freshUsed _).1.mpr ?_
  refine along_attempts_cons trivial rfl ?_
  refine along_attempts_cons trivial rfl ?_
  refine along_attempts_last_step ?_
  intro _
  refine ⟨by decide, by decide, by decide, ?_⟩
  intro i j later inside looked no
  have few : i < 24 := looked
  have within : i < (tagged [⟨0, 24, 1, 1⟩, ⟨64, 1, 2, 0⟩]).length :=
    Nat.lt_of_lt_of_le few (by decide)
  have read : ∀ k : Fin 24,
      (tagged [⟨0, 24, 1, 1⟩, ⟨64, 1, 2, 0⟩])[k.val]?.map Prod.fst = some true := by
    decide
  have here := read ⟨i, few⟩
  rw [List.getElem?_eq_getElem within] at here
  cases no.symm.trans (Option.some.inj here)

theorem status_qualifier_leaked :
    ¬ ∀ (mem : Mem) (avail : VringAvail) (used : VringUsed) (events : List Event),
      AlongAttempts step RunsTranslated (pciVtscsiInit mem avail used) events := by
  intro always
  have along := always noMemory oneAvail freshUsed
    ((opened ++ [.requestq plainRequest, .take]) ++ [.handle 0 good noMemory])
  have ran : ∃ s, attempts step (pciVtscsiInit noMemory oneAvail freshUsed)
      (opened ++ [.requestq plainRequest, .take]) = .ok s ∧ s.config = ⟨96, 32⟩ ∧
        s.running[0]? = some (requestOf 0 [⟨0, 51, 1, 1⟩, ⟨64, 108, 2, 0⟩] 0) :=
    ⟨_, rfl, rfl, rfl⟩
  obtain ⟨s, ran, config, found⟩ := ran
  have right := along_attempts_last _ _ ran along
  have proper := (step_right_iff s _ (run_account ran)).mp right _ found
  have short := proper.determined
  rw [config] at short
  revert short
  decide

end

end Vtscsi
