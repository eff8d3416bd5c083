import Bhyve.Nvme.Threads

/-!
The ranges of a deallocation, and the structures that are copied to the PRP pages of a command. A
status is written over what a local variable holds, and its upper bits stay.
-/
namespace NvmeRanges
open Nvme List

structure DsmRange where
  startingLba : BitVec 64
  length : BitVec 32

inductive Answer where
  | refused | failed | done
deriving DecidableEq

/-- The size of a sector is a positive int. -/
abbrev SectorSize := { sectsz : BitVec 32 // 0 < sectsz.toInt }

structure Dealloc where
  asked : List (BitVec 64 × BitVec 64)
  statuses : List (BitVec 16)

def Dealloc.ask (s : Dealloc) (request : BitVec 64 × BitVec 64) : Dealloc :=
  { s with asked := s.asked ++ [request] }

def Dealloc.complete (s : Dealloc) (status : BitVec 16) : Dealloc :=
  { s with statuses := s.statuses ++ [status] }

/-- pci_nvme_status_genc clears the bits of the type and the code, and no others. -/
def pciNvmeStatusGenc (status code : BitVec 16) : BitVec 16 :=
  status &&& ~~~statusMask ||| statusGenc code

def extent (sectsz : SectorSize) (r : DsmRange) : BitVec 64 × BitVec 64 :=
  (r.startingLba * sectsz.val.signExtend 64, (r.length * sectsz.val).setWidth 64)

/-- What a deallocation meets: the store, the ranges that have been copied from the PRP pages, what
    the block device answers to each, and what the routine that completes has on its stack. -/
structure Meets where
  cfg : Config
  sectsz : SectorSize
  ranges : Nat → DsmRange
  env : Nat → Answer
  stack : BitVec 16

section
variable (meets : Meets)

def Meets.request (i : Nat) : BitVec 64 × BitVec 64 := extent meets.sectsz (meets.ranges i)

def pciNvmeDeallocSm (prevSize : Nat) : Nat → Nat → Dealloc → Dealloc
  | 0, _, s => s
  | fuel + 1, prevGpaddr, s =>
      let error := pciNvmeStatusGenc meets.stack scInternalDeviceError
      if meets.env prevGpaddr = .failed then s.complete error
      else if prevGpaddr + 1 = prevSize then s.complete (pciNvmeStatusGenc meets.stack scSuccess)
      else
        let s := s.ask (meets.request (prevGpaddr + 1))
        if meets.env (prevGpaddr + 1) = .refused then s.complete error
        else pciNvmeDeallocSm prevSize fuel (prevGpaddr + 1) s

/-- What is asked for, and the status where the request is not left to its callback. The ranges of
    cdw10 are stored in br_iov and the padding behind it, which have room for 512. -/
def nvmeOpcDatasetMgmt (cmd : Command) : List (BitVec 64 × BitVec 64) × Option (BitVec 16) :=
  let error := some (pciNvmeStatusGenc meets.stack scInternalDeviceError)
  if meets.cfg.dsm = false then ([], some (pciNvmeStatusGenc meets.stack scInvalidOpcode))
  else if dsmDeallocates cmd then
    if meets.cfg.deallocate = false then ([], some (pciNvmeStatusGenc meets.stack scSuccess))
    else if meets.cfg.ram then ([], error)
    else ([meets.request 0], if meets.env 0 = .refused then error else none)
  else ([], some meets.stack)

def cmdRanges (cmd : Command) : Nat := (cmd.cdw10 &&& 0xff).toNat

def datasetManagement (cmd : Command) : Dealloc :=
  match nvmeOpcDatasetMgmt meets cmd with
  | (asked, some status) => ⟨asked, [status]⟩
  | (asked, none) =>
      let nr := cmdRanges cmd
      if nr = 0 then
        let code := if meets.env 0 = .failed then scDataTransferError else scSuccess
        ⟨asked, [pciNvmeStatusGenc meets.stack code]⟩
      else pciNvmeDeallocSm meets (nr + 1) (nr + 1) 0 ⟨asked, []⟩

def issues : Bool := meets.cfg.dsm && meets.cfg.deallocate && !meets.cfg.ram

def upToError (env : Nat → Answer) : Nat → Nat → List Nat
  | _, 0 => []
  | i, n + 1 => i :: if env i = .done then upToError env (i + 1) n else []

def exactly (i : Nat) : Nat × Nat :=
  ((meets.ranges i).startingLba.toNat * meets.sectsz.val.toNat,
    (meets.ranges i).length.toNat * meets.sectsz.val.toNat)

def dsmCodes : List (BitVec 16) :=
  [scSuccess, scInvalidOpcode, scDataTransferError, scInternalDeviceError]

/-- A status that is that of a code in all of its bits but the phase, which is set when it is
    posted. -/
def Defined (status : BitVec 16) : Prop := ∃ code ∈ dsmCodes, status &&& ~~~statusP = statusGenc code

/-- One request for each range up to the first error, and then one completion. -/
def DeallocatedExactly (cmd : Command) : Prop :=
  ∃ asked status, datasetManagement meets cmd = ⟨asked, [status]⟩ ∧ Defined status ∧
    asked.map (fun request => (request.1.toInt, request.2.toInt)) =
      if issues meets then
        (upToError meets.env 0 (cmdRanges cmd + 1)).map fun i =>
          (((exactly meets i).1 : Int), ((exactly meets i).2 : Int))
      else []

/-- The stack has no bits above the type and the code, an offset fits an off_t, and a length an
    unsigned int. -/
def RangesFit (cmd : Command) : Prop :=
  meets.stack &&& 0xf000 = 0 ∧ (issues meets = true → ∀ i ∈ upToError meets.env 0 (cmdRanges cmd + 1),
    (exactly meets i).1 < 2 ^ 63 ∧ (exactly meets i).2 < 2 ^ 32)

end

/-- The pages that can be mapped, and the places and the bytes of the buffer that go there. -/
def nvmePrpMemcpy (maps : BitVec 64 → Nat → Bool) (prp1 prp2 : BitVec 64) (len : Nat) :
    List (BitVec 64 × Nat) :=
  if 8 * 1024 < len then []
  else
    let bytes := min (4096 - prp1.toNat % 4096) len
    if maps prp1 bytes = false then []
    else
      let first := (List.range bytes).map fun i => (prp1 + BitVec.ofNat 64 i, i)
      let rest := min (len - bytes) 4096
      if len - bytes = 0 ∨ maps prp2 rest = false then first
      else first ++ (List.range rest).map fun i => (prp2 + BitVec.ofNat 64 i, bytes + i)

def logStructure (logpage : BitVec 8) : Option Nat :=
  if logpage = 1 then some 64 else if logpage = 2 ∨ logpage = 3 then some 512 else none

def logDwords (cdw10 : BitVec 32) : Nat := 1 + (cdw10 >>> 16 &&& 0xfff).toNat

def nvmeOpcGetLogPage (maps : BitVec 64 → Nat → Bool) (prp1 prp2 : BitVec 64) (cdw10 : BitVec 32) :
    List (BitVec 64 × Nat) :=
  match logStructure (cdw10.setWidth 8) with
  | some _ => nvmePrpMemcpy maps prp1 prp2 (logDwords cdw10 * 2)
  | none => []

def identifyStructure (cns : BitVec 8) : Option Nat := if cns = 0 ∨ cns = 1 then some 4096 else none

def nvmeOpcIdentify (maps : BitVec 64 → Nat → Bool) (prp1 prp2 : BitVec 64) (cdw10 : BitVec 32) :
    List (BitVec 64 × Nat) :=
  match identifyStructure (cdw10.setWidth 8) with
  | some size => nvmePrpMemcpy maps prp1 prp2 size
  | none => []

/-- The bytes that are asked for, of a structure that has them, in order. -/
def CopiedExactly (copied : List (BitVec 64 × Nat)) (requested : Nat) (size : Option Nat) : Prop :=
  ∀ n ∈ size, copied.map Prod.snd = List.range requested ∧ requested ≤ n

inductive Request where
  | dealloc (meets : Meets) (cmd : Command)
  | getLogPage (maps : BitVec 64 → Nat → Bool) (prp1 prp2 : BitVec 64) (cdw10 : BitVec 32)
  | identify (maps : BitVec 64 → Nat → Bool) (prp1 prp2 : BitVec 64) (cdw10 : BitVec 32)

def ServedExactly : Request → Prop
  | .dealloc meets cmd => dsmDeallocates cmd = true → DeallocatedExactly meets cmd
  | .getLogPage maps prp1 prp2 cdw10 =>
      CopiedExactly (nvmeOpcGetLogPage maps prp1 prp2 cdw10) (logDwords cdw10 * 4)
        (logStructure (cdw10.setWidth 8))
  | .identify maps prp1 prp2 cdw10 =>
      CopiedExactly (nvmeOpcIdentify maps prp1 prp2 cdw10) 4096
        (identifyStructure (cdw10.setWidth 8))

/-- The ranges fit, no log page is asked for, and the pages of a structure are mapped. -/
def Fits : Request → Prop
  | .dealloc meets cmd => dsmDeallocates cmd = true → RangesFit meets cmd
  | .getLogPage _ _ _ cdw10 => logStructure (cdw10.setWidth 8) = none
  | .identify maps prp1 prp2 cdw10 => identifyStructure (cdw10.setWidth 8) ≠ none →
      maps prp1 (4096 - prp1.toNat % 4096) = true ∧
        (prp1.toNat % 4096 = 0 ∨ maps prp2 (prp1.toNat % 4096) = true)

section

variable {meets : Meets} {cmd : Command} {nr : Nat}

theorem generic_bits : ∀ code ∈ dsmCodes, statusGenc code &&& 0xf000 = 0 ∧
    statusGenc code &&& ~~~statusP = statusGenc code ∧
      statusGenc code &&& statusMask = statusGenc code := by
  intro code member
  simp only [dsmCodes, mem_cons, not_mem_nil, or_false] at member
  obtain rfl | rfl | rfl | rfl := member
  · decide
  · decide
  · decide
  · decide

theorem status_genc_defined {status code : BitVec 16} (known : code ∈ dsmCodes) :
    Defined (pciNvmeStatusGenc status code) ↔ status &&& 0xf000 = 0 := by
  have bits : pciNvmeStatusGenc status code &&& ~~~statusP = status &&& 0xf000 ||| statusGenc code := by
    unfold pciNvmeStatusGenc
    rw [BitVec.and_or_distrib_right, (generic_bits code known).2.1, BitVec.and_assoc]
    rfl
  unfold Defined
  rw [bits]
  constructor
  · rintro ⟨other, member, same⟩
    have upper := congrArg (· &&& (0xf000 : BitVec 16)) same
    rw [BitVec.and_or_distrib_right, (generic_bits code known).1, (generic_bits other member).1,
      BitVec.and_assoc] at upper
    exact BitVec.or_zero.symm.trans upper
  · intro clear
    refine ⟨code, known, ?_⟩
    rw [clear]
    exact BitVec.zero_or

theorem status_genc_masked {status code : BitVec 16} (known : code ∈ dsmCodes) :
    pciNvmeStatusGenc status code &&& statusMask = statusGenc code := by
  unfold pciNvmeStatusGenc
  rw [BitVec.and_or_distrib_right, (generic_bits code known).2.2, BitVec.and_assoc,
    show ~~~statusMask &&& statusMask = 0 from rfl]
  simp

/-- Where the command is issued, and with which type and code it ends otherwise, is as the threads of
    the controller have it. -/
theorem dataset_as_threads (stored : meets.cfg.ram = false) :
    ((nvmeOpcDatasetMgmt meets cmd).2 = none ↔
        dsmIssues meets.cfg cmd (decide (meets.env 0 ≠ .refused)) = true) ∧
      ∀ status ∈ (nvmeOpcDatasetMgmt meets cmd).2,
        status &&& statusMask = dsmStatus meets.cfg cmd meets.stack &&& statusMask := by
  have masked {code : BitVec 16} (known : code ∈ dsmCodes) :
      pciNvmeStatusGenc meets.stack code &&& statusMask = statusGenc code &&& statusMask :=
    (status_genc_masked known).trans (generic_bits code known).2.2.symm
  unfold nvmeOpcDatasetMgmt dsmIssues dsmStatus
  rw [stored]
  cases meets.cfg.dsm with
  | false => exact ⟨by simp, by simpa using masked (by decide)⟩
  | true =>
    cases dsmDeallocates cmd with
    | false => exact ⟨by simp, by simp⟩
    | true =>
      cases meets.cfg.deallocate with
      | false => exact ⟨by simp, by simpa using masked (by decide)⟩
      | true =>
        by_cases refused : meets.env 0 = .refused
        · exact ⟨by simp [refused], by simpa [refused] using masked (by decide)⟩
        · exact ⟨by simp [refused], by simp [refused]⟩

theorem dealloc_sm_runs (m : Nat) : ∀ (prev fuel : Nat) (s : Dealloc), meets.env prev ≠ .refused →
    prev + m + 1 = nr + 1 → m < fuel →
    ∃ code ∈ dsmCodes, pciNvmeDeallocSm meets (nr + 1) fuel prev s =
      ⟨s.asked ++ (if meets.env prev = .done then upToError meets.env (prev + 1) m else []).map
        meets.request, s.statuses ++ [pciNvmeStatusGenc meets.stack code]⟩ := by
  have error : scInternalDeviceError ∈ dsmCodes := by decide
  induction m with
  | zero =>
    intro prev fuel s taken all enough
    obtain ⟨fuel, rfl⟩ : ∃ f, fuel = f + 1 := ⟨fuel - 1, by omega⟩
    have last : prev + 1 = nr + 1 := by omega
    unfold pciNvmeDeallocSm
    dsimp only
    rw [if_pos last]
    cases ended : meets.env prev with
    | refused => exact absurd ended taken
    | failed => exact ⟨_, error, by simp [Dealloc.complete]⟩
    | done => exact ⟨scSuccess, by decide, by simp [Dealloc.complete, upToError]⟩
  | succ m ih =>
    intro prev fuel s taken all enough
    obtain ⟨fuel, rfl⟩ : ∃ f, fuel = f + 1 := ⟨fuel - 1, by omega⟩
    have more : ¬ prev + 1 = nr + 1 := by omega
    unfold pciNvmeDeallocSm
    dsimp only
    rw [if_neg more]
    cases ended : meets.env prev with
    | refused => exact absurd ended taken
    | failed => exact ⟨_, error, by simp [Dealloc.complete]⟩
    | done =>
      by_cases next : meets.env (prev + 1) = .refused
      · exact ⟨_, error, by simp [next, Dealloc.complete, Dealloc.ask, upToError]⟩
      · obtain ⟨code, known, ran⟩ := ih (prev + 1) fuel (s.ask (meets.request (prev + 1))) next
          (by omega) (by omega)
        refine ⟨code, known, ?_⟩
        rw [if_neg nofun, if_neg next, ran]
        simp [Dealloc.ask, upToError]

theorem dataset_runs (deallocates : dsmDeallocates cmd = true) :
    ∃ code ∈ dsmCodes, datasetManagement meets cmd =
      ⟨if issues meets then (upToError meets.env 0 (cmdRanges cmd + 1)).map meets.request else [],
        [pciNvmeStatusGenc meets.stack code]⟩ := by
  have error : scInternalDeviceError ∈ dsmCodes := by decide
  unfold datasetManagement nvmeOpcDatasetMgmt issues
  cases meets.cfg.dsm with
  | false => exact ⟨scInvalidOpcode, by decide, rfl⟩
  | true =>
    rw [deallocates]
    cases meets.cfg.deallocate with
    | false => exact ⟨scSuccess, by decide, rfl⟩
    | true =>
      cases meets.cfg.ram with
      | true => exact ⟨_, error, rfl⟩
      | false =>
        by_cases first : meets.env 0 = .refused
        · exact ⟨_, error, by simp [first, upToError]⟩
        by_cases single : cmdRanges cmd = 0
        · refine ⟨if meets.env 0 = .failed then scDataTransferError else scSuccess, ?_, ?_⟩
          · split <;> decide
          · simp [first, single, upToError]
        · obtain ⟨code, known, ran⟩ := @dealloc_sm_runs meets (cmdRanges cmd) (cmdRanges cmd) 0
            (cmdRanges cmd + 1) ⟨[meets.request 0], []⟩ first (by omega) (Nat.lt_succ_self _)
          refine ⟨code, known, ?_⟩
          simp [first, single, ran, upToError]

theorem request_exact_iff (i : Nat) : ((meets.request i).1.toInt, (meets.request i).2.toInt) =
        (((exactly meets i).1 : Int), ((exactly meets i).2 : Int)) ↔
      (exactly meets i).1 < 2 ^ 63 ∧ (exactly meets i).2 < 2 ^ 32 := by
  have positive : meets.sectsz.val.msb = false := by
    rw [BitVec.msb_eq_toInt]
    exact decide_eq_false (Int.not_lt.mpr (Int.le_of_lt meets.sectsz.property))
  have small := meets.sectsz.val.isLt
  have offset : (meets.request i).1.toNat = (exactly meets i).1 % 2 ^ 64 := by
    rw [Meets.request, extent, BitVec.signExtend_eq_setWidth_of_msb_false positive]
    simp [exactly, BitVec.toNat_mul]
  have length : (meets.request i).2.toNat = (exactly meets i).2 % 2 ^ 32 := by
    simp only [Meets.request, extent, exactly, BitVec.toNat_setWidth, BitVec.toNat_mul]
    omega
  rw [Prod.mk.injEq, BitVec.toInt_eq_toNat_cond, BitVec.toInt_eq_toNat_cond, offset, length]
  generalize (exactly meets i).1 = first
  generalize (exactly meets i).2 = second
  split <;> split <;> omega

theorem deallocated_exactly_iff (deallocates : dsmDeallocates cmd = true) :
    DeallocatedExactly meets cmd ↔ RangesFit meets cmd := by
  obtain ⟨code, known, ran⟩ := @dataset_runs meets cmd deallocates
  have defined := @status_genc_defined meets.stack code known
  unfold DeallocatedExactly RangesFit
  rw [ran]
  constructor
  · rintro ⟨asked, status, same, right, exact_⟩
    obtain ⟨rfl, statuses⟩ := Dealloc.mk.inj same
    obtain ⟨rfl, -⟩ := List.cons.inj statuses
    refine ⟨defined.mp right, fun served i member => ?_⟩
    rw [served, if_pos rfl, if_pos rfl, List.map_map] at exact_
    exact (request_exact_iff i).mp (List.map_inj_left.mp exact_ i member)
  · rintro ⟨clear, fits⟩
    refine ⟨_, _, rfl, defined.mpr clear, ?_⟩
    cases served : issues meets with
    | false => rfl
    | true =>
      rw [if_pos rfl, if_pos rfl, List.map_map]
      exact List.map_inj_left.mpr fun i member => (request_exact_iff i).mpr (fits served i member)

variable {maps : BitVec 64 → Nat → Bool} {prp1 prp2 : BitVec 64} {len : Nat}

theorem prp_memcpy_le : (nvmePrpMemcpy maps prp1 prp2 len).length ≤ len := by
  unfold nvmePrpMemcpy
  dsimp only
  split_ifs
  all_goals
    simp
    try omega

theorem page_memcpy_iff : (nvmePrpMemcpy maps prp1 prp2 4096).map Prod.snd = List.range 4096 ↔
    maps prp1 (4096 - prp1.toNat % 4096) = true ∧
      (prp1.toNat % 4096 = 0 ∨ maps prp2 (prp1.toNat % 4096) = true) := by
  have inside : prp1.toNat % 4096 < 4096 := Nat.mod_lt _ (by decide)
  unfold nvmePrpMemcpy
  generalize prp1.toNat % 4096 = start at *
  have first : min (4096 - start) 4096 = 4096 - start := by omega
  have remaining : 4096 - (4096 - start) = start := by omega
  have second : min start 4096 = start := by omega
  simp only [first, remaining, second, Nat.reduceMul, Nat.reduceLT, if_false]
  cases lower : maps prp1 (4096 - start) with
  | false => simp
  | true =>
    cases upper : maps prp2 start with
    | false =>
      simp only [or_true, if_true, Bool.true_eq_false, if_false, List.map_map, Bool.false_eq_true,
        or_false, true_and]
      constructor
      · intro same
        have count := congrArg List.length same
        simp only [length_map, length_range] at count
        omega
      · intro aligned
        rw [aligned, Nat.sub_zero]
        exact map_id'' (fun _ => rfl) _
    | true =>
      by_cases aligned : start = 0
      · simp only [aligned, Nat.sub_zero, Bool.true_eq_false, if_false, true_or, if_true, and_self,
          List.map_map, iff_true]
        exact map_id'' (fun _ => rfl) _
      · simp only [aligned, Bool.true_eq_false, or_false, if_false, or_true, true_and, iff_true,
          map_append, List.map_map, Function.comp_def, List.map_id']
        rw [← range_add, show 4096 - start + start = 4096 by omega]

theorem log_page_iff {cdw10 : BitVec 32} :
    CopiedExactly (nvmeOpcGetLogPage maps prp1 prp2 cdw10) (logDwords cdw10 * 4)
      (logStructure (cdw10.setWidth 8)) ↔ logStructure (cdw10.setWidth 8) = none := by
  unfold nvmeOpcGetLogPage CopiedExactly
  cases logStructure (cdw10.setWidth 8) with
  | none => simp
  | some size =>
    refine iff_of_false (fun copied => ?_) (Option.some_ne_none size)
    have count : (nvmePrpMemcpy maps prp1 prp2 (logDwords cdw10 * 2)).length = logDwords cdw10 * 4 := by
      simpa using congrArg List.length (copied size rfl).1
    have less := @prp_memcpy_le maps prp1 prp2 (logDwords cdw10 * 2)
    unfold logDwords at count less
    omega

theorem identify_iff {cdw10 : BitVec 32} : CopiedExactly (nvmeOpcIdentify maps prp1 prp2 cdw10) 4096
      (identifyStructure (cdw10.setWidth 8)) ↔ (identifyStructure (cdw10.setWidth 8) ≠ none →
      maps prp1 (4096 - prp1.toNat % 4096) = true ∧
        (prp1.toNat % 4096 = 0 ∨ maps prp2 (prp1.toNat % 4096) = true)) := by
  unfold nvmeOpcIdentify CopiedExactly identifyStructure
  split_ifs with page
  · rw [page_memcpy_iff]
    simp
  · simp

def oneRange : Meets where
  cfg := ⟨1, false, true, true⟩
  sectsz := ⟨512, by decide⟩
  ranges := fun _ => ⟨0, 0x800000⟩
  env := fun _ => .done
  stack := 0

def deallocateOne : Command := ⟨opcDatasetManagement, 1, 0x1000, 0, 4⟩

end
end NvmeRanges
