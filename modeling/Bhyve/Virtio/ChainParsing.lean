import Bhyve.Virtio.Virtqueue

/-!
vq_getchain with what it reads and with the addresses that vm_map_gpa may not find.
-/
namespace Virtio
open List

section

structure Guest (H : Type) where
  mapGpa : BitVec 64 → BitVec 32 → Option H
  desc : Nat → VirtioDesc
  table : H → Nat → VirtioDesc

structure Entry (H : Type) where
  base : Option H
  len : BitVec 32
  flags : BitVec 16

inductive Read where
  | desc (index : Nat)
  | indirect (len : BitVec 32) (index : Nat)

structure Progress (H : Type) where
  i : Nat
  iov : List (Entry H)
  reads : List Read

inductive Ending where
  | done
  | confused
  | null
  | unfinished
  deriving DecidableEq

variable {H : Type} (g : Guest H) (hvCaps : BitVec 64) (qsize : BitVec 16) (nIov : Nat)

def Guest.entry (vd : VirtioDesc) : Entry H := ⟨g.mapGpa vd.addr vd.len, vd.len, vd.flags⟩

def Progress.read (p : Progress H) (r : Read) : Progress H := { p with reads := p.reads ++ [r] }

def Progress.record (p : Progress H) (vd : VirtioDesc) : Progress H :=
  { p with i := p.i + 1, iov := if nIov ≤ p.i then p.iov else p.iov ++ [g.entry vd] }

def walkTable (table : Nat → VirtioDesc) (len : BitVec 32) :
    Nat → Nat → Progress H → Ending × Progress H
  | 0, _, p => (.unfinished, p)
  | fuel + 1, next, p =>
      let vp := table next
      let p := p.read (.indirect len next)
      if hasFlag vp.flags vringDescFIndirect then (.confused, p)
      else
        let p := p.record g nIov vp
        if vqMaxDescriptors < p.i then (.confused, p)
        else if !hasFlag vp.flags vringDescFNext then (.done, p)
        else if len.toNat / 16 ≤ vp.next.toNat then (.confused, p)
        else walkTable table len fuel vp.next.toNat p

def walkDesc (vdir : VirtioDesc) (p : Progress H) : Ending × Progress H :=
  if !hasFlag vdir.flags vringDescFIndirect then (.done, p.record g nIov vdir)
  else if hvCaps &&& virtioRingFIndirectDesc = 0 then (.confused, p)
  else if vdir.len &&& 0xf ≠ 0 ∨ vdir.len.toNat / 16 = 0 then (.confused, p)
  else
    match g.mapGpa vdir.addr vdir.len with
    | none => (.null, p)
    | some vindir => walkTable g nIov (g.table vindir) vdir.len (vqMaxDescriptors + 1 - p.i) 0 p

def walkQueue : Nat → Nat → Progress H → Ending × Progress H
  | 0, _, p => (.unfinished, p)
  | fuel + 1, next, p =>
      if vqMaxDescriptors ≤ p.i then (.confused, p)
      else if qsize.toNat ≤ next then (.confused, p)
      else
        let vdir := g.desc next
        match walkDesc g hvCaps nIov vdir (p.read (.desc next)) with
        | (.done, p) =>
            if !hasFlag vdir.flags vringDescFNext then (.done, p)
            else walkQueue fuel vdir.next.toNat p
        | stopped => stopped

structure Parsed (H : Type) where
  ret : Option Int
  iov : List (Entry H)
  reads : List Read

def Progress.parsed (p : Progress H) : Ending → Parsed H
  | .done => ⟨some p.i, p.iov, p.reads⟩
  | .confused => ⟨some (-1), p.iov, p.reads⟩
  | .null | .unfinished => ⟨none, p.iov, p.reads⟩

def headOf (vq : VqueueInfo) : Nat :=
  (vq.avail.ring (vq.lastAvail &&& (vq.qsize - 1)).toNat).toNat

def noProgress : Progress H := ⟨0, [], []⟩

/-- vq_getchain, as far as it is about the descriptors. -/
def parseChain (vq : VqueueInfo) : Parsed H :=
  let ndesc := (vq.avail.idx - vq.lastAvail).toNat
  if ndesc = 0 then ⟨some 0, [], []⟩
  else if vq.qsize.toNat < ndesc then ⟨some (-1), [], []⟩
  else
    let (ending, p) :=
      walkQueue g hvCaps vq.qsize nIov (vqMaxDescriptors + 1) (headOf vq) noProgress
    p.parsed ending

end

section
variable {H : Type}

inductive TableChain (table : Nat → VirtioDesc) (n : Nat) : Nat → List VirtioDesc → Prop
  | last {next : Nat} (inside : next < n)
      (plain : hasFlag (table next).flags vringDescFIndirect = false)
      (ends : hasFlag (table next).flags vringDescFNext = false) : TableChain table n next [table next]
  | link {next : Nat} {ds : List VirtioDesc} (inside : next < n)
      (plain : hasFlag (table next).flags vringDescFIndirect = false)
      (goes : hasFlag (table next).flags vringDescFNext = true)
      (rest : TableChain table n (table next).next.toNat ds) :
      TableChain table n next (table next :: ds)

structure Indirect (hvCaps : BitVec 64) (vd : VirtioDesc) : Prop where
  flag : hasFlag vd.flags vringDescFIndirect = true
  caps : hvCaps &&& virtioRingFIndirectDesc ≠ 0
  whole : vd.len &&& 0xf = 0
  some_ : vd.len.toNat / 16 ≠ 0

inductive Piece (g : Guest H) (hvCaps : BitVec 64) (vd : VirtioDesc) : List VirtioDesc → Prop
  | direct (plain : hasFlag vd.flags vringDescFIndirect = false) : Piece g hvCaps vd [vd]
  | indirect {vindir : H} {ds : List VirtioDesc} (valid : Indirect hvCaps vd)
      (mapped : g.mapGpa vd.addr vd.len = some vindir)
      (chain : TableChain (g.table vindir) (vd.len.toNat / 16) 0 ds) : Piece g hvCaps vd ds

inductive Chain (g : Guest H) (hvCaps : BitVec 64) (qsize : BitVec 16) : Nat → List VirtioDesc → Prop
  | last {next : Nat} {ps : List VirtioDesc} (inside : next < qsize.toNat)
      (ends : hasFlag (g.desc next).flags vringDescFNext = false)
      (piece : Piece g hvCaps (g.desc next) ps) : Chain g hvCaps qsize next ps
  | link {next : Nat} {ps ds : List VirtioDesc} (inside : next < qsize.toNat)
      (goes : hasFlag (g.desc next).flags vringDescFNext = true)
      (piece : Piece g hvCaps (g.desc next) ps)
      (rest : Chain g hvCaps qsize (g.desc next).next.toNat ds) : Chain g hvCaps qsize next (ps ++ ds)

/-- With i descriptors counted, the chain comes to an indirect table that vm_map_gpa does not find. -/
inductive ReachesUnmapped (g : Guest H) (hvCaps : BitVec 64) (qsize : BitVec 16) : Nat → Nat → Prop
  | here {i next : Nat} (room : i < vqMaxDescriptors) (inside : next < qsize.toNat)
      (valid : Indirect hvCaps (g.desc next))
      (missing : g.mapGpa (g.desc next).addr (g.desc next).len = none) :
      ReachesUnmapped g hvCaps qsize i next
  | later {i next : Nat} {ps : List VirtioDesc} (inside : next < qsize.toNat)
      (goes : hasFlag (g.desc next).flags vringDescFNext = true)
      (piece : Piece g hvCaps (g.desc next) ps)
      (rest : ReachesUnmapped g hvCaps qsize (i + ps.length) (g.desc next).next.toNat) :
      ReachesUnmapped g hvCaps qsize i next

def Read.Inside (qsize : BitVec 16) : Read → Prop
  | .desc index => index < qsize.toNat
  | .indirect len index => index < len.toNat / 16

structure Recorded (g : Guest H) (qsize : BitVec 16) (nIov : Nat) (ds : List VirtioDesc)
    (p : Progress H) : Prop where
  count : p.i = ds.length
  iov : p.iov = (ds.take nIov).map g.entry
  reads : ∀ r ∈ p.reads, r.Inside qsize

variable {g : Guest H} {hvCaps : BitVec 64} {qsize : BitVec 16} {nIov : Nat} {p : Progress H}
  {ds : List VirtioDesc}

theorem recorded_read (recorded : Recorded g qsize nIov ds p) {r : Read} (inside : r.Inside qsize) :
    Recorded g qsize nIov ds (p.read r) := by
  refine ⟨recorded.count, recorded.iov, ?_⟩
  intro x member
  rcases List.mem_append.mp member with old | new
  · exact recorded.reads x old
  · rw [List.mem_singleton.mp new]
    exact inside

theorem recorded_record (recorded : Recorded g qsize nIov ds p) (vd : VirtioDesc) :
    Recorded g qsize nIov (ds ++ [vd]) (p.record g nIov vd) := by
  obtain ⟨count, iov, reads⟩ := recorded
  refine ⟨?_, ?_, reads⟩
  · simp [Progress.record, count]
  · unfold Progress.record
    rw [count, iov, take_append]
    split
    · next full => simp [Nat.sub_eq_zero_of_le full]
    · next room =>
      obtain ⟨k, more⟩ : ∃ k, nIov - ds.length = k + 1 := ⟨nIov - ds.length - 1, by omega⟩
      simp [more]

variable {table : Nat → VirtioDesc} {n next : Nat} {vd : VirtioDesc}

theorem table_chain_unique {a : List VirtioDesc} (first : TableChain table n next a) :
    ∀ {b : List VirtioDesc}, TableChain table n next b → a = b := by
  induction first with
  | last inside plain ends =>
    intro b second
    cases second with
    | last => rfl
    | link _ _ goes _ =>
      rw [goes] at ends
      cases ends
  | link inside plain goes rest ih =>
    intro b second
    cases second with
    | last _ _ ends =>
      rw [goes] at ends
      cases ends
    | link _ _ _ later => rw [ih later]

theorem table_chain_some (chain : TableChain table n next ds) : 0 < ds.length := by
  cases chain with
  | last => exact Nat.one_pos
  | link => exact Nat.succ_pos _

theorem piece_some (piece : Piece g hvCaps vd ds) : 0 < ds.length := by
  cases piece with
  | direct => exact Nat.one_pos
  | indirect _ _ chain => exact table_chain_some chain

theorem piece_unique {a b : List VirtioDesc} (first : Piece g hvCaps vd a)
    (second : Piece g hvCaps vd b) : a = b := by
  cases first with
  | direct plain =>
    cases second with
    | direct => rfl
    | indirect valid _ _ =>
      have flag := valid.flag
      rw [plain] at flag
      cases flag
  | indirect valid mapped chain =>
    cases second with
    | direct plain =>
      have flag := valid.flag
      rw [plain] at flag
      cases flag
    | indirect _ mapped' chain' =>
      rw [mapped] at mapped'
      cases mapped'
      exact table_chain_unique chain chain'

theorem table_chain_inside (chain : TableChain table n next ds) : next < n := by
  cases chain with
  | last inside => exact inside
  | link inside => exact inside

theorem table_chain_plain (chain : TableChain table n next ds) :
    hasFlag (table next).flags vringDescFIndirect = false := by
  cases chain with
  | last _ plain => exact plain
  | link _ plain => exact plain

theorem reaches_room {i : Nat} (reaches : ReachesUnmapped g hvCaps qsize i next) :
    i < vqMaxDescriptors ∧ next < qsize.toNat := by
  induction reaches with
  | here room inside => exact ⟨room, inside⟩
  | later inside _ piece _ ih => exact ⟨by omega, inside⟩

/-- How a walk ends that starts with some descriptors recorded: with the chain, or because there is
    none of at most vqMaxDescriptors, or where a table is not mapped. -/
inductive Walks (g : Guest H) (qsize : BitVec 16) (nIov : Nat) (ds : List VirtioDesc)
    (chain : List VirtioDesc → Prop) (unmapped : Prop) : Ending × Progress H → Prop
  | done {ps : List VirtioDesc} {p : Progress H} (found : chain ps)
      (recorded : Recorded g qsize nIov (ds ++ ps) p)
      (few : (ds ++ ps).length ≤ vqMaxDescriptors) (mapped : ¬unmapped) :
      Walks g qsize nIov ds chain unmapped (.done, p)
  | confused {p : Progress H} (reads : ∀ r ∈ p.reads, r.Inside qsize)
      (long : ∀ ps, chain ps → vqMaxDescriptors < (ds ++ ps).length) (mapped : ¬unmapped) :
      Walks g qsize nIov ds chain unmapped (.confused, p)
  | null {p : Progress H} (reads : ∀ r ∈ p.reads, r.Inside qsize) (missing : unmapped) :
      Walks g qsize nIov ds chain unmapped (.null, p)

theorem walk_table (table : Nat → VirtioDesc) (len : BitVec 32) (fuel : Nat) :
    ∀ (next : Nat) (p : Progress H) (ds : List VirtioDesc), Recorded g qsize nIov ds p →
      next < len.toNat / 16 → ds.length ≤ vqMaxDescriptors → vqMaxDescriptors < fuel + ds.length →
        Walks g qsize nIov ds (TableChain table (len.toNat / 16) next) False
          (walkTable g nIov table len fuel next p) := by
  induction fuel with
  | zero =>
    intro next p ds _ _ few enough
    omega
  | succ fuel ih =>
    intro next p ds recorded inside few enough
    have seen : Recorded g qsize nIov ds (p.read (.indirect len next)) :=
      recorded_read recorded inside
    unfold walkTable
    dsimp only
    by_cases indirect : hasFlag (table next).flags vringDescFIndirect = true
    · rw [if_pos indirect]
      refine .confused seen.reads (fun ps chain => ?_) id
      rw [table_chain_plain chain] at indirect
      cases indirect
    have plain : hasFlag (table next).flags vringDescFIndirect = false :=
      Bool.eq_false_iff.mpr indirect
    rw [if_neg indirect]
    have more := recorded_record seen (table next)
    have count : ((p.read (.indirect len next)).record g nIov (table next)).i = ds.length + 1 := by
      rw [more.count, length_append, length_singleton]
    rw [count]
    by_cases full : vqMaxDescriptors < ds.length + 1
    · rw [if_pos full]
      refine .confused more.reads (fun ps chain => ?_) id
      have some_ := table_chain_some chain
      rw [length_append]
      omega
    rw [if_neg full]
    by_cases ends : hasFlag (table next).flags vringDescFNext = false
    · rw [ends, Bool.not_false, if_pos rfl]
      refine .done (.last inside plain ends) more ?_ id
      rw [length_append, length_singleton]
      omega
    have goes : hasFlag (table next).flags vringDescFNext = true := (Bool.not_eq_false _).mp ends
    rw [goes, Bool.not_true, if_neg Bool.false_ne_true]
    by_cases outside : len.toNat / 16 ≤ (table next).next.toNat
    · rw [if_pos outside]
      refine .confused more.reads (fun ps chain => ?_) id
      cases chain with
      | last _ _ ends' => exact absurd ends' ends
      | link _ _ _ rest => exact absurd (table_chain_inside rest) (Nat.not_lt.mpr outside)
    rw [if_neg outside]
    have later := ih (table next).next.toNat _ (ds ++ [table next]) more (Nat.lt_of_not_le outside)
      (by rw [length_append, length_singleton]; omega)
      (by rw [length_append, length_singleton]; omega)
    generalize walkTable g nIov table len fuel (table next).next.toNat _ = result at later ⊢
    cases later with
    | done found recorded' few' mapped =>
      rw [List.append_assoc] at recorded' few'
      exact .done (.link inside plain goes found) recorded' few' mapped
    | confused reads long mapped =>
      refine .confused reads (fun ps chain => ?_) mapped
      cases chain with
      | last _ _ ends' => exact absurd ends' ends
      | link _ _ _ rest =>
        have longer := long _ rest
        rw [List.append_assoc] at longer
        exact longer
    | null _ missing => exact missing.elim

theorem walk_desc (recorded : Recorded g qsize nIov ds p) (room : ds.length < vqMaxDescriptors) :
    Walks g qsize nIov ds (Piece g hvCaps vd)
      (Indirect hvCaps vd ∧ g.mapGpa vd.addr vd.len = none) (walkDesc g hvCaps nIov vd p) := by
  unfold walkDesc
  by_cases plain : hasFlag vd.flags vringDescFIndirect = false
  · rw [plain, Bool.not_false, if_pos rfl]
    refine .done (.direct plain) (recorded_record recorded vd) ?_ ?_
    · rw [length_append, length_singleton]
      omega
    · rintro ⟨valid, -⟩
      have flag := valid.flag
      rw [plain] at flag
      cases flag
  have flag : hasFlag vd.flags vringDescFIndirect = true := (Bool.not_eq_false _).mp plain
  rw [flag, Bool.not_true, if_neg Bool.false_ne_true]
  -- without a valid table there is no piece at all
  have invalid : ¬Indirect hvCaps vd →
      Walks g qsize nIov ds (Piece g hvCaps vd)
        (Indirect hvCaps vd ∧ g.mapGpa vd.addr vd.len = none) (.confused, p) := by
    intro none_
    refine .confused recorded.reads (fun ps piece => ?_) fun both => none_ both.1
    cases piece with
    | direct plain' => exact absurd plain' plain
    | indirect valid => exact absurd valid none_
  by_cases caps : hvCaps &&& virtioRingFIndirectDesc = 0
  · rw [if_pos caps]
    exact invalid fun valid => valid.caps caps
  rw [if_neg caps]
  by_cases length : vd.len &&& 0xf ≠ 0 ∨ vd.len.toNat / 16 = 0
  · rw [if_pos length]
    refine invalid fun valid => ?_
    rcases length with odd | none_
    · exact odd valid.whole
    · exact valid.some_ none_
  rw [if_neg length]
  rw [not_or, not_not] at length
  obtain ⟨whole, some_⟩ := length
  have valid : Indirect hvCaps vd := ⟨flag, caps, whole, some_⟩
  generalize mapped : g.mapGpa vd.addr vd.len = host
  cases host with
  | none => exact .null recorded.reads ⟨valid, rfl⟩
  | some vindir =>
    dsimp only
    have table := walk_table (g.table vindir) vd.len (vqMaxDescriptors + 1 - p.i) 0 p ds recorded
      (Nat.pos_of_ne_zero some_) (Nat.le_of_lt room) (by rw [recorded.count]; omega)
    have found : ¬(Indirect hvCaps vd ∧ some vindir = none) := fun both => nomatch both.2
    generalize walkTable g nIov (g.table vindir) vd.len _ 0 p = result at table ⊢
    cases table with
    | done chain recorded' few _ => exact .done (.indirect valid mapped chain) recorded' few found
    | confused reads long _ =>
      refine .confused reads (fun ps piece => ?_) found
      cases piece with
      | direct plain' => exact absurd plain' plain
      | indirect _ mapped' chain =>
        rw [mapped] at mapped'
        cases mapped'
        exact long ps chain
    | null _ missing => exact missing.elim

theorem walk_queue (fuel : Nat) : ∀ (next : Nat) (p : Progress H) (ds : List VirtioDesc),
    Recorded g qsize nIov ds p → ds.length ≤ vqMaxDescriptors →
      vqMaxDescriptors < fuel + ds.length →
        Walks g qsize nIov ds (Chain g hvCaps qsize next)
          (ReachesUnmapped g hvCaps qsize ds.length next)
          (walkQueue g hvCaps qsize nIov fuel next p) := by
  induction fuel with
  | zero =>
    intro next p ds _ few enough
    omega
  | succ fuel ih =>
    intro next p ds recorded few enough
    unfold walkQueue
    rw [recorded.count]
    by_cases full : vqMaxDescriptors ≤ ds.length
    · rw [if_pos full]
      refine .confused recorded.reads (fun ps chain => ?_) fun reaches => ?_
      · have some_ : 0 < ps.length := by
          cases chain with
          | last _ _ piece => exact piece_some piece
          | link _ _ piece =>
            have first := piece_some piece
            rw [length_append]
            omega
        rw [length_append]
        omega
      · exact absurd (reaches_room reaches).1 (Nat.not_lt.mpr full)
    rw [if_neg full]
    by_cases outside : qsize.toNat ≤ next
    · rw [if_pos outside]
      refine .confused recorded.reads (fun ps chain => ?_) fun reaches => ?_
      · cases chain with
        | last inside => exact absurd inside (Nat.not_lt.mpr outside)
        | link inside => exact absurd inside (Nat.not_lt.mpr outside)
      · exact absurd (reaches_room reaches).2 (Nat.not_lt.mpr outside)
    rw [if_neg outside]
    have inside : next < qsize.toNat := Nat.lt_of_not_le outside
    have room : ds.length < vqMaxDescriptors := Nat.lt_of_not_le full
    have seen : Recorded g qsize nIov ds (p.read (.desc next)) := recorded_read recorded inside
    have first : Walks g qsize nIov ds (Piece g hvCaps (g.desc next))
        (Indirect hvCaps (g.desc next) ∧ g.mapGpa (g.desc next).addr (g.desc next).len = none)
        (walkDesc g hvCaps nIov (g.desc next) (p.read (.desc next))) := walk_desc seen room
    dsimp only
    generalize walkDesc g hvCaps nIov (g.desc next) (p.read (.desc next)) = result at first ⊢
    cases first with
    | confused reads long mapped =>
      refine .confused reads (fun ps chain => ?_) fun reaches => ?_
      · cases chain with
        | last _ _ piece => exact long ps piece
        | link _ _ piece =>
          have longer := long _ piece
          rw [length_append] at longer
          rw [length_append, length_append]
          omega
      · cases reaches with
        | here _ _ valid missing => exact mapped ⟨valid, missing⟩
        | later _ _ piece rest =>
          have longer := long _ piece
          have short := (reaches_room rest).1
          rw [length_append] at longer
          omega
    | null reads missing => exact .null reads (.here room inside missing.1 missing.2)
    | @done ps p' piece recorded' few' mapped =>
      dsimp only
      by_cases ends : hasFlag (g.desc next).flags vringDescFNext = false
      · rw [ends, Bool.not_false, if_pos rfl]
        refine .done (.last inside ends piece) recorded' few' fun reaches => ?_
        cases reaches with
        | here _ _ valid missing => exact mapped ⟨valid, missing⟩
        | later _ goes => exact absurd ends (by rw [goes]; decide)
      have goes : hasFlag (g.desc next).flags vringDescFNext = true :=
        (Bool.not_eq_false _).mp ends
      rw [goes, Bool.not_true, if_neg Bool.false_ne_true]
      have some_ := piece_some piece
      have later := ih (g.desc next).next.toNat p' (ds ++ ps) recorded' few'
        (by rw [length_append]; omega)
      rw [length_append] at later
      generalize walkQueue g hvCaps qsize nIov fuel (g.desc next).next.toNat p' = result at later ⊢
      cases later with
      | done found recorded'' few'' mapped' =>
        rw [List.append_assoc] at recorded'' few''
        refine .done (.link inside goes piece found) recorded'' few'' fun reaches => ?_
        cases reaches with
        | here _ _ valid missing => exact mapped ⟨valid, missing⟩
        | later _ _ piece' rest =>
          rw [piece_unique piece' piece] at rest
          exact mapped' rest
      | confused reads long mapped' =>
        refine .confused reads (fun qs chain => ?_) fun reaches => ?_
        · cases chain with
          | last _ ends' => exact absurd ends' ends
          | link _ _ piece' rest =>
            rw [piece_unique piece' piece, ← List.append_assoc]
            exact long _ rest
        · cases reaches with
          | here _ _ valid missing => exact mapped ⟨valid, missing⟩
          | later _ _ piece' rest =>
            rw [piece_unique piece' piece] at rest
            exact mapped' rest
      | null reads missing => exact .null reads (.later inside goes piece missing)

end

section
variable {H : Type}

def HasHead (vq : VqueueInfo) : Prop :=
  (vq.avail.idx - vq.lastAvail).toNat ≠ 0 ∧ (vq.avail.idx - vq.lastAvail).toNat ≤ vq.qsize.toNat

/-- What vq_getchain may return: with -1 there is no chain, or none that is short enough. -/
inductive Returned (g : Guest H) (hvCaps : BitVec 64) (nIov : Nat) (vq : VqueueInfo)
    (iov : List (Entry H)) : Int → Prop
  | none_ (empty : (vq.avail.idx - vq.lastAvail).toNat = 0) : Returned g hvCaps nIov vq iov 0
  | confused (long : HasHead vq → ∀ ds, Chain g hvCaps vq.qsize (headOf vq) ds →
      vqMaxDescriptors < ds.length) : Returned g hvCaps nIov vq iov (-1)
  | chain {ds : List VirtioDesc} (head : HasHead vq) (found : Chain g hvCaps vq.qsize (headOf vq) ds)
      (some_ : 0 < ds.length) (few : ds.length ≤ vqMaxDescriptors)
      (entries : iov = (ds.take nIov).map g.entry) : Returned g hvCaps nIov vq iov ds.length

/-- It returns, has stayed inside of the tables, and has recorded the chain if there is one. -/
structure Parses (g : Guest H) (hvCaps : BitVec 64) (nIov : Nat) (vq : VqueueInfo)
    (out : Parsed H) : Prop where
  reads : ∀ r ∈ out.reads, r.Inside vq.qsize
  returns : ∃ ret, out.ret = some ret ∧ Returned g hvCaps nIov vq out.iov ret

theorem no_progress_recorded (g : Guest H) (qsize : BitVec 16) (nIov : Nat) :
    Recorded g qsize nIov [] noProgress :=
  ⟨rfl, by rw [take_nil]; rfl, fun r never => absurd never not_mem_nil⟩

theorem chain_some {g : Guest H} {hvCaps : BitVec 64} {qsize : BitVec 16} {next : Nat}
    {ds : List VirtioDesc} (chain : Chain g hvCaps qsize next ds) : 0 < ds.length := by
  cases chain with
  | last _ _ piece => exact piece_some piece
  | link _ _ piece =>
    have first := piece_some piece
    rw [length_append]
    omega

theorem walk_head (g : Guest H) (hvCaps : BitVec 64) (vq : VqueueInfo) (nIov : Nat) :
    Walks g vq.qsize nIov [] (Chain g hvCaps vq.qsize (headOf vq))
      (ReachesUnmapped g hvCaps vq.qsize 0 (headOf vq))
      (walkQueue g hvCaps vq.qsize nIov (vqMaxDescriptors + 1) (headOf vq) noProgress) :=
  walk_queue (vqMaxDescriptors + 1) (headOf vq) noProgress [] (no_progress_recorded g vq.qsize nIov)
    (Nat.zero_le _) (Nat.lt_succ_self _)

/-- For every table and ring: vq_getchain is right unless it comes to a table that is not mapped. -/
theorem parse_chain_iff (g : Guest H) (hvCaps : BitVec 64) (nIov : Nat) (vq : VqueueInfo) :
    Parses g hvCaps nIov vq (parseChain g hvCaps nIov vq) ↔
      ¬(HasHead vq ∧ ReachesUnmapped g hvCaps vq.qsize 0 (headOf vq)) := by
  unfold parseChain
  by_cases none_ : (vq.avail.idx - vq.lastAvail).toNat = 0
  · rw [if_pos none_]
    refine ⟨fun _ both => both.1.1 none_, fun _ => ⟨fun r never => ?_, 0, rfl, .none_ none_⟩⟩
    exact absurd never not_mem_nil
  rw [if_neg none_]
  by_cases many : vq.qsize.toNat < (vq.avail.idx - vq.lastAvail).toNat
  · rw [if_pos many]
    have none_ : ¬HasHead vq := fun head => absurd head.2 (Nat.not_le.mpr many)
    refine ⟨fun _ both => none_ both.1, fun _ => ⟨fun r never => ?_, -1, rfl, .confused ?_⟩⟩
    · exact absurd never not_mem_nil
    · intro head
      exact absurd head none_
  rw [if_neg many]
  have head : HasHead vq := ⟨none_, Nat.le_of_not_lt many⟩
  have walk := walk_head g hvCaps vq nIov
  generalize walkQueue g hvCaps vq.qsize nIov (vqMaxDescriptors + 1) (headOf vq) noProgress =
    result at walk ⊢
  cases walk with
  | done found recorded few mapped =>
    refine ⟨fun _ both => mapped both.2, fun _ => ⟨recorded.reads, _, rfl, ?_⟩⟩
    rw [recorded.count]
    exact .chain head found (chain_some found) few recorded.iov
  | confused reads long mapped =>
    exact ⟨fun _ both => mapped both.2, fun _ => ⟨reads, -1, rfl, .confused fun _ => long⟩⟩
  | null reads missing =>
    constructor
    · rintro ⟨-, ret, never, -⟩
      cases never
    · intro fine
      exact absurd ⟨head, missing⟩ fine

theorem null_table_read : ¬∀ (g : Guest Unit) (hvCaps : BitVec 64) (nIov : Nat) (vq : VqueueInfo),
      Parses g hvCaps nIov vq (parseChain g hvCaps nIov vq) := by
  intro every
  obtain ⟨-, ret, returned, -⟩ := every
    ⟨fun _ _ => none, fun _ => ⟨0xffffffff0, 16, vringDescFIndirect, 0⟩, fun _ _ => ⟨0, 0, 0, 0⟩⟩
    virtioRingFIndirectDesc 1
    ⟨1, vqAlloc, 0, 0, 0, ⟨0, 1, fun _ => 0⟩, ⟨0, 0, fun _ => ⟨0, 0⟩⟩⟩
  have never : (none : Option Int) = some ret := returned
  cases never

end

section

def Descriptors.guest (mem : Descriptors) : Guest (BitVec 64) :=
  ⟨fun addr _ => some addr, mem.desc, mem.indirect⟩

inductive SameWalk (g : Guest (BitVec 64)) : Ending × Progress (BitVec 64) → Walk → Prop
  | done {p : Progress (BitVec 64)} {iov : List VirtioDesc} (entries : p.iov = iov.map g.entry) :
      SameWalk g (.done, p) (.done p.i iov)
  | confused {ending : Ending} {p : Progress (BitVec 64)} {iov : List VirtioDesc}
      (stopped : ending ≠ .done) (entries : p.iov = iov.map g.entry) :
      SameWalk g (ending, p) (.confused iov)

variable (mem : Descriptors) (hvCaps : BitVec 64) (nIov : Nat)

theorem record_entries {p : Progress (BitVec 64)} {iov : List VirtioDesc}
    (entries : p.iov = iov.map mem.guest.entry) (vd : VirtioDesc) :
    (p.record mem.guest nIov vd).iov = (vqRecord p.i nIov vd iov).map mem.guest.entry := by
  unfold Progress.record vqRecord
  split
  · exact entries
  · rw [entries, map_append, map_singleton]

theorem walk_table_same (table : Nat → VirtioDesc) (len : BitVec 32) (fuel : Nat) :
    ∀ (next : Nat) (p : Progress (BitVec 64)) (iov : List VirtioDesc),
      p.iov = iov.map mem.guest.entry →
        SameWalk mem.guest (walkTable mem.guest nIov table len fuel next p)
          (indirectWalk table (len.toNat / 16) nIov fuel p.i next iov) := by
  induction fuel with
  | zero => exact fun next p iov entries => .confused (by decide) entries
  | succ fuel ih =>
    intro next p iov entries
    unfold walkTable indirectWalk
    dsimp only
    have recorded : ((p.read (.indirect len next)).record mem.guest nIov (table next)).iov =
        (vqRecord p.i nIov (table next) iov).map mem.guest.entry := record_entries mem nIov entries _
    split
    · exact .confused (by decide) entries
    have count : ((p.read (.indirect len next)).record mem.guest nIov (table next)).i = p.i + 1 := rfl
    rw [count]
    split
    · exact .confused (by decide) recorded
    split
    · exact .done recorded
    split
    · exact .confused (by decide) recorded
    · exact ih _ _ _ recorded

theorem walk_desc_same {p : Progress (BitVec 64)} {iov : List VirtioDesc}
    (entries : p.iov = iov.map mem.guest.entry) (vd : VirtioDesc) :
    SameWalk mem.guest (walkDesc mem.guest hvCaps nIov vd p)
      (descWalk mem hvCaps nIov p.i vd iov) := by
  unfold walkDesc descWalk
  dsimp only [Descriptors.guest]
  split
  · exact .done (record_entries mem nIov entries vd)
  split
  · exact .confused (by decide) entries
  split
  · exact .confused (by decide) entries
  · exact walk_table_same mem nIov (mem.indirect vd.addr) vd.len _ 0 p iov entries

theorem never_unmapped {qsize : BitVec 16} {i next : Nat} :
    ¬ReachesUnmapped mem.guest hvCaps qsize i next := by
  intro reaches
  induction reaches with
  | here _ _ _ missing => cases missing
  | later _ _ _ _ ih => exact ih

theorem walk_queue_same (qsize : BitVec 16) (fuel : Nat) :
    ∀ (next : Nat) (p : Progress (BitVec 64)) (iov : List VirtioDesc),
      p.iov = iov.map mem.guest.entry →
        ∀ ending out, walkQueue mem.guest hvCaps qsize nIov fuel next p = (ending, out) →
          out.iov = (chainWalk mem hvCaps qsize nIov fuel p.i next iov).2.map mem.guest.entry ∧
            (chainWalk mem hvCaps qsize nIov fuel p.i next iov).1 =
              if ending = .done then (out.i : Int) else -1 := by
  induction fuel with
  | zero =>
    rintro next p iov entries ending out ⟨⟩
    exact ⟨entries, rfl⟩
  | succ fuel ih =>
    intro next p iov entries ending out walked
    unfold walkQueue at walked
    unfold chainWalk
    dsimp only at walked ⊢
    by_cases full : vqMaxDescriptors ≤ p.i
    · rw [if_pos full] at walked ⊢
      cases walked
      exact ⟨entries, rfl⟩
    rw [if_neg full] at walked ⊢
    by_cases outside : qsize.toNat ≤ next
    · rw [if_pos outside] at walked ⊢
      cases walked
      exact ⟨entries, rfl⟩
    rw [if_neg outside] at walked ⊢
    have same : SameWalk mem.guest
        (walkDesc mem.guest hvCaps nIov (mem.guest.desc next) (p.read (.desc next)))
        (descWalk mem hvCaps nIov p.i (mem.desc next) iov) :=
      walk_desc_same mem hvCaps nIov (p := p.read (.desc next)) entries (mem.desc next)
    generalize walkDesc mem.guest hvCaps nIov (mem.guest.desc next) (p.read (.desc next)) =
      result at same walked
    generalize descWalk mem hvCaps nIov p.i (mem.desc next) iov = result' at same ⊢
    cases same with
    | @confused ending' p' _ stopped entries' =>
      have ended : (ending', p') = (ending, out) := by
        cases ending' with
        | done => exact absurd rfl stopped
        | confused | null | unfinished => exact walked
      cases ended
      rw [if_neg stopped]
      exact ⟨entries', rfl⟩
    | @done p' iov' entries' =>
      dsimp only at walked ⊢
      by_cases ends : (!hasFlag (mem.desc next).flags vringDescFNext) = true
      · rw [if_pos ends]
        have last : (.done, p') = (ending, out) := (if_pos ends).symm.trans walked
        cases last
        exact ⟨entries', rfl⟩
      · rw [if_neg ends]
        exact ih _ p' iov' entries' ending out ((if_neg ends).symm.trans walked)

theorem parse_chain_getchain (vq : VqueueInfo) :
    (parseChain mem.guest hvCaps nIov vq).ret = some (vqGetchain mem hvCaps nIov vq).ret ∧
      (parseChain mem.guest hvCaps nIov vq).iov =
        (vqGetchain mem hvCaps nIov vq).iov.map mem.guest.entry := by
  unfold parseChain vqGetchain
  by_cases none_ : (vq.avail.idx - vq.lastAvail).toNat = 0
  · rw [if_pos none_, if_pos none_]
    exact ⟨rfl, rfl⟩
  rw [if_neg none_, if_neg none_]
  by_cases many : vq.qsize.toNat < (vq.avail.idx - vq.lastAvail).toNat
  · rw [if_pos many, if_pos many]
    exact ⟨rfl, rfl⟩
  rw [if_neg many, if_neg many]
  have walk := walk_head mem.guest hvCaps vq nIov
  have same := walk_queue_same mem hvCaps nIov vq.qsize (vqMaxDescriptors + 1) (headOf vq)
    noProgress [] rfl
  generalize walkQueue mem.guest hvCaps vq.qsize nIov (vqMaxDescriptors + 1) (headOf vq) noProgress =
    result at walk same ⊢
  obtain ⟨entries, ret⟩ := same _ _ rfl
  cases walk with
  | done => exact ⟨congrArg some ret.symm, entries⟩
  | confused => exact ⟨congrArg some ret.symm, entries⟩
  | null _ missing => exact absurd missing (never_unmapped mem hvCaps)

end

end Virtio
