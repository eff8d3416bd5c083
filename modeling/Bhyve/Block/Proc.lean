import Mathlib.Algebra.GroupWithZero.Nat
import Bhyve.Block.Backend
import Bhyve.Block.Queue
import Bhyve.Virtio.Virtqueue

/-!
blockif_proc: what a worker does for one request. The vectors of a request are read as the
addresses of their bytes, in order. Every call of the host is given the errno that it fails
with, or 0; a call that does not fail moves what the file holds after the offset. The bounce
buffer of a worker starts with what its last request has left there.
-/
namespace BlockProc
open ByteMemory BlockIf Virtio
open List hiding Mem

structure Disk where
  ctxt : BlockCtxt
  ischr : Bool
  isgeom : Bool
  candelete : Bool
  maxphys : Nat
  maxphys_pos : 0 < maxphys

structure Request where
  brIov : List VirtioDesc
  brOffset : BitVec 64
  brResid : Nat

structure Done where
  mem : Mem
  data : Mem
  err : BitVec 32

def erofs : BitVec 32 := 30
def eopnotsupp : BitVec 32 := 45

def span (address length : Nat) : List Nat := (List.range length).map (address + ·)

def bytes (iov : List VirtioDesc) : List Nat :=
  iov.flatMap fun v => span v.addr.toNat v.len.toNat

def total (iov : List VirtioDesc) : Nat := (iov.map fun v => v.len.toNat).sum

def scatterTo : Mem → List Nat → Mem → Mem
  | mem, [], _ => mem
  | mem, place :: places, src =>
      scatterTo (write8 mem place (src 0)) places fun j => src (j + 1)

def gatherFrom (mem : Mem) (places : List Nat) : Mem := fun j => mem (places.getD j 0)

def chunk : List VirtioDesc → Nat → Nat → Option (List Nat × List VirtioDesc × Nat)
  | [], _, _ => none
  | v :: rest, voff, left =>
      let clen := min left (v.len.toNat - voff)
      let moved := span (v.addr.toNat + voff) clen
      if clen < v.len.toNat - voff then some (moved, v :: rest, voff + clen)
      else if left - clen = 0 then some (moved, rest, 0)
      else (chunk rest 0 (left - clen)).map fun c => (moved ++ c.1, c.2)

def remaining : List VirtioDesc → Nat → List Nat
  | [], _ => []
  | v :: rest, voff => span (v.addr.toNat + voff) (v.len.toNat - voff) ++ bytes rest

def moves (failure : BitVec 32) (size length offset : Nat) : Except (BitVec 32) Nat :=
  if failure ≠ 0 then .error failure
  else if 2 ^ 63 ≤ offset then .error einval
  else .ok (min length (size - offset))

def readLoop (d : Disk) (host : Nat → BitVec 32) (offset : Nat) :
    Nat → Nat → List VirtioDesc → Nat → Nat → Nat → Mem → Mem → Option Done
  | 0, _, _, _, _, _, mem, _ => some ⟨mem, d.ctxt.data, 0⟩
  | fuel + 1, call, iov, voff, off, resid, mem, buf =>
      if resid = 0 then some ⟨mem, d.ctxt.data, 0⟩
      else
        let len := min resid d.maxphys
        match moves (host call) d.ctxt.size len (offset + off) with
        | .error err => some ⟨mem, d.ctxt.data, err⟩
        | .ok count =>
            let buf := copyInto buf 0 count fun j => d.ctxt.data (offset + off + j)
            match chunk iov voff len with
            | none => none
            | some (moved, iov, voff) =>
                readLoop d host offset fuel (call + 1) iov voff (off + len) (resid - len)
                  (scatterTo mem moved buf) buf

def writeLoop (d : Disk) (host : Nat → BitVec 32) (offset : Nat) (mem : Mem) :
    Nat → Nat → List VirtioDesc → Nat → Nat → Nat → Mem → Option Done
  | 0, _, _, _, _, _, data => some ⟨mem, data, 0⟩
  | fuel + 1, call, iov, voff, off, resid, data =>
      if resid = 0 then some ⟨mem, data, 0⟩
      else
        let len := min resid d.maxphys
        match chunk iov voff len with
        | none => none
        | some (moved, iov, voff) =>
            match moves (host call) d.ctxt.size len (offset + off) with
            | .error err => some ⟨mem, data, err⟩
            | .ok count =>
                writeLoop d host offset mem fuel (call + 1) iov voff (off + len) (resid - len)
                  (copyInto data (offset + off) count (gatherFrom mem moved))

variable (d : Disk)

def buffered (r : Request) : Bool := d.isgeom && decide (1 < r.brIov.length)

def procRead (host : Nat → BitVec 32) (buf : Mem) (r : Request) (mem : Mem) : Option Done :=
  let offset := r.brOffset.toNat
  if buffered d r then readLoop d host offset r.brResid 0 r.brIov 0 0 r.brResid mem buf
  else
    match moves (host 0) d.ctxt.size (total r.brIov) offset with
    | .error err => some ⟨mem, d.ctxt.data, err⟩
    | .ok count =>
        some ⟨scatterTo mem ((bytes r.brIov).take count) fun j => d.ctxt.data (offset + j),
          d.ctxt.data, 0⟩

def procWrite (host : Nat → BitVec 32) (r : Request) (mem : Mem) : Option Done :=
  let offset := r.brOffset.toNat
  if d.ctxt.rdonly then some ⟨mem, d.ctxt.data, erofs⟩
  else if buffered d r then
    writeLoop d host offset mem r.brResid 0 r.brIov 0 0 r.brResid d.ctxt.data
  else
    match moves (host 0) d.ctxt.size (total r.brIov) offset with
    | .error err => some ⟨mem, d.ctxt.data, err⟩
    | .ok count =>
        some ⟨mem, copyInto d.ctxt.data offset count (gatherFrom mem (bytes r.brIov)), 0⟩

def procDelete (host : Nat → BitVec 32) (left : Mem) (r : Request) (mem : Mem) : Done :=
  if !d.candelete then ⟨mem, d.ctxt.data, eopnotsupp⟩
  else if d.ctxt.rdonly then ⟨mem, d.ctxt.data, erofs⟩
  else if !d.ischr then ⟨mem, d.ctxt.data, eopnotsupp⟩
  else if host 0 ≠ 0 then ⟨mem, d.ctxt.data, host 0⟩
  else ⟨mem, copyInto d.ctxt.data r.brOffset.toNat r.brResid left, 0⟩

/-- None where an index lies outside of br_iov. -/
def blockifProc (host : Nat → BitVec 32) (buf : Mem) (op : BlockQueue.BlockOp)
    (r : Request) (mem : Mem) : Option Done :=
  match op with
  | .read => procRead d host buf r mem
  | .write => procWrite d host r mem
  | .flush => some ⟨mem, d.ctxt.data, host 0⟩
  | .delete => some (procDelete d host buf r mem)

theorem span_length (address length : Nat) : (span address length).length = length := by
  rw [span, length_map, length_range]

theorem bytes_length (iov : List VirtioDesc) : (bytes iov).length = total iov := by
  rw [bytes, length_flatMap, total]
  congr 1
  apply map_congr_left
  intro v _
  exact span_length _ _

theorem span_take {address length left : Nat} (fits : left ≤ length) :
    (span address length).take left = span address left := by
  rw [span, ← map_take, take_range, Nat.min_eq_left fits]
  rfl

theorem span_drop {address length left : Nat} :
    (span address length).drop left = span (address + left) (length - left) := by
  apply ext_getElem
  · rw [length_drop, span_length, span_length]
  · intro j _ _
    rw [getElem_drop]
    simp only [span, getElem_map, getElem_range]
    omega

theorem remaining_start (iov : List VirtioDesc) : remaining iov 0 = bytes iov := by
  cases iov with
  | nil => rfl
  | cons v rest => rfl

theorem chunk_takes (iov : List VirtioDesc) (voff left : Nat)
    (fits : left ≤ (remaining iov voff).length) (some_left : 0 < left) :
    ∃ rest after, chunk iov voff left = some ((remaining iov voff).take left, rest, after) ∧
      remaining rest after = (remaining iov voff).drop left := by
  induction iov generalizing voff left with
  | nil => exact absurd fits (by simp only [remaining, length_nil]; omega)
  | cons v rest ih =>
    have length := span_length (v.addr.toNat + voff) (v.len.toNat - voff)
    unfold chunk
    by_cases inside : left < v.len.toNat - voff
    · rw [Nat.min_eq_left (Nat.le_of_lt inside), if_pos inside]
      refine ⟨v :: rest, voff + left, ?_, ?_⟩
      · rw [remaining, take_append_of_le_length (by omega), span_take (Nat.le_of_lt inside)]
      · rw [remaining, remaining, drop_append_of_le_length (by omega),
          span_drop, Nat.add_assoc, Nat.sub_add_eq]
    · have whole : min left (v.len.toNat - voff) = v.len.toNat - voff := Nat.min_eq_right (by omega)
      rw [whole, if_neg (Nat.lt_irrefl _)]
      by_cases last : left - (v.len.toNat - voff) = 0
      · rw [if_pos last]
        have same : left = (span (v.addr.toNat + voff) (v.len.toNat - voff)).length := by omega
        refine ⟨rest, 0, ?_, ?_⟩
        · rw [remaining, same, take_left]
        · rw [remaining, same, drop_left, remaining_start]
      · rw [if_neg last]
        rw [remaining, length_append, length, ← remaining_start] at fits
        obtain ⟨later, after, copied, kept⟩ :=
          ih 0 (left - (v.len.toNat - voff)) (by omega) (by omega)
        have past : (span (v.addr.toNat + voff) (v.len.toNat - voff)).length ≤ left := by omega
        refine ⟨later, after, ?_, ?_⟩
        · rw [copied, remaining, take_append, length, take_of_length_le past,
            remaining_start]
          rfl
        · rw [kept, remaining, drop_append, length, drop_of_length_le past,
            nil_append, remaining_start]

theorem scatter_append (mem : Mem) (first second : List Nat) (src : Mem) :
    scatterTo mem (first ++ second) src =
      scatterTo (scatterTo mem first src) second fun j => src (first.length + j) := by
  induction first generalizing mem src with
  | nil => simp only [nil_append, scatterTo, length_nil, Nat.zero_add]
  | cons place first ih =>
    rw [List.cons_append, scatterTo, ih, scatterTo, length_cons]
    congr 1
    funext j
    congr 1
    omega

theorem scatter_congr (mem : Mem) (places : List Nat) {src other : Mem}
    (same : ∀ j, j < places.length → src j = other j) :
    scatterTo mem places src = scatterTo mem places other := by
  induction places generalizing mem src other with
  | nil => rfl
  | cons place places ih =>
    rw [scatterTo, scatterTo, same 0 (Nat.succ_pos _)]
    exact ih _ fun j inside => same (j + 1) (Nat.succ_lt_succ inside)

theorem copy_append (data : Mem) (offset first second : Nat) (src : Mem) :
    copyInto (copyInto data offset first src) (offset + first) second (fun j => src (first + j)) =
      copyInto data offset (first + second) src := by
  funext x
  unfold copyInto
  dsimp only
  by_cases late : offset + first ≤ x ∧ x < offset + first + second
  · rw [if_pos late, if_pos (by omega)]
    congr 1
    omega
  · rw [if_neg late]
    by_cases early : offset ≤ x ∧ x < offset + first
    · rw [if_pos early, if_pos (by omega)]
    · rw [if_neg early, if_neg (by omega)]

theorem copy_congr (data : Mem) (offset length : Nat) {src other : Mem}
    (same : ∀ j, j < length → src j = other j) :
    copyInto data offset length src = copyInto data offset length other := by
  funext x
  unfold copyInto
  split
  · exact same _ (by omega)
  · rfl

theorem moves_inside {failure : BitVec 32} {size length offset count : Nat}
    (moved : moves failure size length offset = .ok count)
    (inside : length = 0 ∨ offset + length ≤ size) : count = length := by
  unfold moves at moved
  split at moved
  · cases moved
  · split at moved
    · cases moved
    · cases moved
      omega

theorem moves_error {failure err : BitVec 32} {size length offset : Nat}
    (failed : moves failure size length offset = .error err) : err ≠ 0 := by
  unfold moves at failed
  split at failed
  · cases failed
    assumption
  · split at failed
    · cases failed
      decide
    · cases failed

theorem read_loop_exact (host : Nat → BitVec 32) (offset fuel call : Nat)
    (iov : List VirtioDesc) (voff off resid : Nat) (mem buf : Mem)
    (length : (remaining iov voff).length = resid) (bound : resid ≤ fuel)
    (inside : resid = 0 ∨ offset + off + resid ≤ d.ctxt.size) :
    ∃ done, readLoop d host offset fuel call iov voff off resid mem buf = some done ∧
      done.data = d.ctxt.data ∧
      (done.err = 0 → done.mem =
        scatterTo mem (remaining iov voff) fun j => d.ctxt.data (offset + off + j)) := by
  induction fuel generalizing call iov voff off resid mem buf with
  | zero =>
    have nothingLeft : remaining iov voff = [] := eq_nil_of_length_eq_zero (by omega)
    refine ⟨_, rfl, rfl, fun _ => ?_⟩
    rw [nothingLeft]
    rfl
  | succ fuel ih =>
    unfold readLoop
    dsimp only
    have positive := d.maxphys_pos
    by_cases finished : resid = 0
    · have nothingLeft : remaining iov voff = [] := eq_nil_of_length_eq_zero (by omega)
      rw [if_pos finished]
      refine ⟨_, rfl, rfl, fun _ => ?_⟩
      rw [nothingLeft]
      rfl
    · rw [if_neg finished]
      generalize chosen : min resid d.maxphys = len
      have some_left : 0 < len := by omega
      cases moved : moves (host call) d.ctxt.size len (offset + off) with
      | error err => exact ⟨_, rfl, rfl, fun fine => absurd fine (moves_error moved)⟩
      | ok count =>
        have whole := moves_inside moved (by omega)
        obtain ⟨rest, after, copied, kept⟩ := chunk_takes iov voff len (by omega) some_left
        rw [copied]
        have left : (remaining rest after).length = resid - len := by
          rw [kept, length_drop, length]
        obtain ⟨done, ran, same, exactly⟩ := ih (call + 1) rest after (off + len) (resid - len)
          (scatterTo mem ((remaining iov voff).take len)
            (copyInto buf 0 count fun j => d.ctxt.data (offset + off + j)))
          (copyInto buf 0 count fun j => d.ctxt.data (offset + off + j)) left (by omega) (by omega)
        refine ⟨done, ran, same, fun fine => ?_⟩
        have taken : ((remaining iov voff).take len).length = len := by
          rw [length_take]
          omega
        rw [exactly fine, kept]
        conv_rhs => rw [← take_append_drop len (remaining iov voff), scatter_append, taken]
        have fresh : ∀ j, j < ((remaining iov voff).take len).length →
            copyInto buf 0 count (fun j => d.ctxt.data (offset + off + j)) j =
              d.ctxt.data (offset + off + j) := by
          intro j early
          unfold copyInto
          rw [if_pos (by omega), Nat.sub_zero]
        rw [scatter_congr mem _ fresh]
        simp only [Nat.add_assoc]

theorem gather_drop (mem : Mem) (places : List Nat) (len j : Nat) :
    gatherFrom mem (places.drop len) j = gatherFrom mem places (len + j) := by
  unfold gatherFrom
  rw [getD_eq_getElem?_getD, getD_eq_getElem?_getD, getElem?_drop]

theorem gather_take (mem : Mem) (places : List Nat) {len j : Nat} (early : j < len) :
    gatherFrom mem (places.take len) j = gatherFrom mem places j := by
  unfold gatherFrom
  rw [getD_eq_getElem?_getD, getD_eq_getElem?_getD, getElem?_take_of_lt early]

theorem write_loop_exact (host : Nat → BitVec 32) (offset : Nat) (mem : Mem)
    (fuel call : Nat) (iov : List VirtioDesc) (voff off resid : Nat) (data : Mem)
    (length : (remaining iov voff).length = resid) (bound : resid ≤ fuel)
    (inside : resid = 0 ∨ offset + off + resid ≤ d.ctxt.size) :
    ∃ done, writeLoop d host offset mem fuel call iov voff off resid data = some done ∧
      done.mem = mem ∧
      (done.err = 0 → done.data =
        copyInto data (offset + off) resid (gatherFrom mem (remaining iov voff))) := by
  have nothing : ∀ place, copyInto data place 0 (gatherFrom mem (remaining iov voff)) = data := by
    intro place
    funext x
    exact if_neg (by omega)
  induction fuel generalizing call iov voff off resid data with
  | zero =>
    have nothingLeft : resid = 0 := by omega
    refine ⟨_, rfl, rfl, fun _ => ?_⟩
    rw [nothingLeft, nothing]
  | succ fuel ih =>
    unfold writeLoop
    dsimp only
    have positive := d.maxphys_pos
    by_cases finished : resid = 0
    · rw [if_pos finished]
      refine ⟨_, rfl, rfl, fun _ => ?_⟩
      rw [finished, nothing]
    · rw [if_neg finished]
      generalize chosen : min resid d.maxphys = len
      have small : len ≤ resid := by omega
      obtain ⟨rest, after, copied, kept⟩ := chunk_takes iov voff len (by omega) (by omega)
      rw [copied]
      cases moved : moves (host call) d.ctxt.size len (offset + off) with
      | error err => exact ⟨_, rfl, rfl, fun fine => absurd fine (moves_error moved)⟩
      | ok count =>
        have whole := moves_inside moved (by omega)
        have left : (remaining rest after).length = resid - len := by
          rw [kept, length_drop, length]
        obtain ⟨done, ran, same, exactly⟩ := ih (call + 1) rest after (off + len) (resid - len)
          (copyInto data (offset + off) count
            (gatherFrom mem ((remaining iov voff).take len))) left (by omega) (by omega)
          (fun place => funext fun x => if_neg (by omega))
        refine ⟨done, ran, same, fun fine => ?_⟩
        rw [exactly fine, kept, whole]
        rw [copy_congr data _ len fun j early => gather_take mem (remaining iov voff) early]
        rw [show gatherFrom mem ((remaining iov voff).drop len) =
          fun j => gatherFrom mem (remaining iov voff) (len + j) from
            funext fun j => gather_drop mem _ len j]
        rw [← Nat.add_assoc offset off len, copy_append, Nat.add_sub_cancel' small]

def ReadExactly (r : Request) (mem : Mem) (done : Done) : Prop :=
  done.data = d.ctxt.data ∧
    done.mem = scatterTo mem (bytes r.brIov) fun j => d.ctxt.data (r.brOffset.toNat + j)

def WriteExactly (r : Request) (mem : Mem) (done : Done) : Prop :=
  done.mem = mem ∧
    done.data =
      copyInto d.ctxt.data r.brOffset.toNat (total r.brIov) (gatherFrom mem (bytes r.brIov))

theorem proc_read_exact {d : Disk} {host : Nat → BitVec 32} {buf : Mem} {r : Request} {mem : Mem}
    (resid : r.brResid = total r.brIov)
    (inside : total r.brIov = 0 ∨ r.brOffset.toNat + total r.brIov ≤ d.ctxt.size) :
    ∃ done, procRead d host buf r mem = some done ∧ (done.err = 0 → ReadExactly d r mem done) := by
  unfold procRead
  by_cases bounce : buffered d r = true
  · rw [if_pos bounce, resid]
    obtain ⟨done, ran, same, exactly⟩ := read_loop_exact d host r.brOffset.toNat
      (total r.brIov) 0 r.brIov 0 0 (total r.brIov) mem buf
      (by rw [remaining_start, bytes_length]) (Nat.le_refl _) inside
    refine ⟨done, ran, fun fine => ⟨same, ?_⟩⟩
    rw [exactly fine, remaining_start]
    rfl
  · rw [if_neg bounce]
    cases moved : moves (host 0) d.ctxt.size (total r.brIov) r.brOffset.toNat with
    | error err => exact ⟨_, rfl, fun fine => absurd fine (moves_error moved)⟩
    | ok count =>
      refine ⟨_, rfl, fun _ => ⟨rfl, ?_⟩⟩
      rw [moves_inside moved inside, ← bytes_length, take_length]

theorem proc_write_exact {d : Disk} {host : Nat → BitVec 32} {r : Request} {mem : Mem}
    (resid : r.brResid = total r.brIov)
    (inside : total r.brIov = 0 ∨ r.brOffset.toNat + total r.brIov ≤ d.ctxt.size) :
    ∃ done, procWrite d host r mem = some done ∧ (done.err = 0 → WriteExactly d r mem done) := by
  unfold procWrite
  by_cases readonly : d.ctxt.rdonly = true
  · rw [if_pos readonly]
    exact ⟨_, rfl, fun never => absurd never (show erofs ≠ 0 by decide)⟩
  · rw [if_neg readonly]
    by_cases bounce : buffered d r = true
    · rw [if_pos bounce, resid]
      obtain ⟨done, ran, same, exactly⟩ := write_loop_exact d host
        r.brOffset.toNat mem (total r.brIov) 0 r.brIov 0 0 (total r.brIov)
        d.ctxt.data (by rw [remaining_start, bytes_length]) (Nat.le_refl _) inside
      refine ⟨done, ran, fun fine => ⟨same, ?_⟩⟩
      rw [exactly fine, remaining_start]
      rfl
    · rw [if_neg bounce]
      cases moved : moves (host 0) d.ctxt.size (total r.brIov) r.brOffset.toNat with
      | error err => exact ⟨_, rfl, fun fine => absurd fine (moves_error moved)⟩
      | ok count =>
        refine ⟨_, rfl, fun _ => ⟨rfl, ?_⟩⟩
        rw [moves_inside moved inside]

theorem moves_negative {failure : BitVec 32} {size length offset : Nat}
    (negative : 2 ^ 63 ≤ offset) : ∃ err, moves failure size length offset = .error err := by
  unfold moves
  by_cases fails : failure ≠ 0
  · exact ⟨failure, if_pos fails⟩
  · exact ⟨einval, by rw [if_neg fails, if_pos negative]⟩

theorem proc_read_negative {d : Disk} {host : Nat → BitVec 32} {buf : Mem} {r : Request}
    {mem : Mem} (resid : r.brResid = total r.brIov) (some_data : total r.brIov ≠ 0)
    (negative : 2 ^ 63 ≤ r.brOffset.toNat) :
    ∃ done, procRead d host buf r mem = some done ∧ done.err ≠ 0 := by
  unfold procRead
  by_cases bounce : buffered d r = true
  · rw [if_pos bounce, resid]
    obtain ⟨fuel, more⟩ := Nat.exists_eq_succ_of_ne_zero some_data
    conv in readLoop _ _ _ _ _ _ _ _ _ _ _ => arg 4; rw [more]
    unfold readLoop
    dsimp only
    obtain ⟨err, failed⟩ := @moves_negative (host 0) d.ctxt.size (min (total r.brIov) d.maxphys)
      (r.brOffset.toNat + 0) negative
    rw [if_neg some_data, failed]
    exact ⟨_, rfl, moves_error failed⟩
  · rw [if_neg bounce]
    obtain ⟨err, failed⟩ := @moves_negative (host 0) d.ctxt.size (total r.brIov) r.brOffset.toNat
      negative
    rw [failed]
    exact ⟨_, rfl, moves_error failed⟩

theorem proc_write_negative {d : Disk} {host : Nat → BitVec 32} {r : Request} {mem : Mem}
    (resid : r.brResid = total r.brIov) (some_data : total r.brIov ≠ 0)
    (negative : 2 ^ 63 ≤ r.brOffset.toNat) :
    ∃ done, procWrite d host r mem = some done ∧ done.err ≠ 0 := by
  unfold procWrite
  by_cases readonly : d.ctxt.rdonly = true
  · rw [if_pos readonly]
    exact ⟨_, rfl, show erofs ≠ 0 by decide⟩
  · rw [if_neg readonly]
    by_cases bounce : buffered d r = true
    · rw [if_pos bounce, resid]
      obtain ⟨fuel, more⟩ := Nat.exists_eq_succ_of_ne_zero some_data
      conv in writeLoop _ _ _ _ _ _ _ _ _ _ _ => arg 5; rw [more]
      unfold writeLoop
      dsimp only
      have positive := d.maxphys_pos
      obtain ⟨rest, after, copied, -⟩ := chunk_takes r.brIov 0 (min (total r.brIov) d.maxphys)
        (by rw [remaining_start, bytes_length]; omega) (by omega)
      obtain ⟨err, failed⟩ := @moves_negative (host 0) d.ctxt.size (min (total r.brIov) d.maxphys)
        (r.brOffset.toNat + 0) negative
      rw [if_neg some_data, copied]
      rw [failed]
      exact ⟨_, rfl, moves_error failed⟩
    · rw [if_neg bounce]
      obtain ⟨err, failed⟩ := @moves_negative (host 0) d.ctxt.size (total r.brIov)
        r.brOffset.toNat negative
      rw [failed]
      exact ⟨_, rfl, moves_error failed⟩

theorem proc_write_readonly {d : Disk} {host : Nat → BitVec 32} {r : Request} {mem : Mem}
    (readonly : d.ctxt.rdonly = true) : procWrite d host r mem = some ⟨mem, d.ctxt.data, erofs⟩ :=
  if_pos readonly

end BlockProc
