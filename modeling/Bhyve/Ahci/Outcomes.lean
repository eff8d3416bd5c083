import Bhyve.Ahci.Port
import Bhyve.Lib.Fallible

namespace Ahci
open BitMasks Fallible

attribute [local instance] decidableOpcode

structure Slots where
  ci : BitVec 32
  sact : BitVec 32
  pending : BitVec 32
  ioreq : Nat → AhciIoreq
  iofhd : List Nat
  iobhd : List Nat
  queued : List Nat
  notes : List Note
  waitforclear : Bool

def AhciPort.slots (p : AhciPort) : Slots where
  ci := p.ci
  sact := p.sact
  pending := p.pending
  ioreq := p.ioreq
  iofhd := p.iofhd
  iobhd := p.iobhd
  queued := p.queued
  notes := p.notes
  waitforclear := p.waitforclear

structure Setting where
  bctx : Bool
  atapi : Bool
  cmdLst : Option Nat
  rfis : Option Nat
  cmd : BitVec 32
  ccs : Fin 32
  ioqsz : Nat

def AhciPort.setting (p : AhciPort) : Setting where
  bctx := p.bctx
  atapi := p.atapi
  cmdLst := p.cmdLst
  rfis := p.rfis
  cmd := p.cmd
  ccs := p.ccs
  ioqsz := p.ioqsz

def AhciPort.delivers (p : AhciPort) : Bool := p.rfis.isSome && decide (p.cmd &&& cmdFre ≠ 0)

variable (s : Slots)

def Slots.answer (slot : Nat) : Slots :=
  { s with
    ci := remove s.ci slot
    notes := s.notes ++ [.clearedCi slot, .completed slot true] }

/-- A FIS that reports an error, which stops the port where the FIS is delivered. -/
def Slots.fail (slot : Nat) (delivered : Bool) : Slots :=
  { s with
    notes := s.notes ++ [.completed slot false]
    waitforclear := s.waitforclear || delivered }

def Slots.accept (slot : Nat) : Slots :=
  { s with ci := remove s.ci slot, notes := s.notes ++ [.clearedCi slot] }

def Slots.finish (slot : Nat) : Slots :=
  { s with
    sact := remove s.sact slot
    notes := s.notes ++ [.clearedSact slot, .completed slot true] }

def Slots.settle (slot : Nat) : Slots := { s with pending := remove s.pending slot }

def Slots.take (k : Nat) (rest : List Nat) (aior : AhciIoreq) : Slots :=
  { s with
    ioreq := Function.update s.ioreq k aior
    pending := add s.pending aior.slot
    iofhd := rest
    iobhd := k :: s.iobhd
    queued := k :: s.queued }

theorem write_fis_port (ft : SataFisType) (v : PortView) (fis : List (BitVec 8))
    (known : (fisArea ft).isSome = true) : ∃ is received,
    (ahciWriteFis v ft fis).port = { v.port with
      waitforclear := v.port.waitforclear || (v.port.delivers && fisFailed fis)
      is := is
      received := received } := by
  unfold ahciWriteFis AhciPort.delivers
  cases v.port.rfis with
  | none => exact ⟨v.port.is, v.port.received, by simp⟩
  | some address =>
    obtain ⟨⟨offset, len, irq⟩, area⟩ := Option.isSome_iff_exists.mp known
    simp only [area]
    by_cases off : v.port.cmd &&& cmdFre = 0
    · exact ⟨v.port.is, v.port.received, by simp [off]⟩
    · simp only [Option.isSome_some, Bool.true_and, decide_eq_true (show v.port.cmd &&& cmdFre ≠ 0 from off)]
      split_ifs
      · exact ⟨_, _, rfl⟩
      · exact ⟨_, _, rfl⟩

theorem status_failed (tfd : BitVec 32) :
    decide ((tfd.setWidth 8 : BitVec 8) &&& 0x01 ≠ 0) = failedTfd tfd := by
  unfold failedTfd ataSError
  rw [decide_eq_decide, ne_zero_iff, ne_zero_iff]
  constructor
  · rintro ⟨n, set_⟩
    refine ⟨n, ?_⟩
    rw [BitVec.getLsbD_and, BitVec.getLsbD_setWidth] at set_
    rw [BitVec.getLsbD_and]
    simp only [Bool.and_eq_true, decide_eq_true_eq] at set_ ⊢
    obtain ⟨⟨narrow, tfdSet⟩, oneSet⟩ := set_
    exact ⟨tfdSet, by simpa using oneSet⟩
  · rintro ⟨n, set_⟩
    rw [BitVec.getLsbD_and, Bool.and_eq_true] at set_
    obtain ⟨tfdSet, oneSet⟩ := set_
    have lowest : n = 0 := by simpa using oneSet
    subst lowest
    exact ⟨0, by simp [tfdSet]⟩

theorem d2h_slots (v : PortView) (slot : Nat) (cfis : Cfis) (tfd : BitVec 32) :
    (ahciWriteFisD2h v slot cfis tfd).port.slots =
        (if failedTfd tfd then v.port.slots.fail slot v.port.delivers
        else v.port.slots.answer slot) ∧
      (ahciWriteFisD2h v slot cfis tfd).port.setting = v.port.setting ∧
      (ahciWriteFisD2h v slot cfis tfd).port.tfd = tfd := by
  unfold ahciWriteFisD2h
  cases failed : failedTfd tfd with
  | true =>
    obtain ⟨is, received, port⟩ := write_fis_port .regd2h
      ⟨v.hba, AhciPort.note { setErrCfis v.port 0x80 (tfd.setWidth 8) ((tfd >>> 8).setWidth 8) cfis
        with tfd := tfd } (.completed slot false)⟩
      ([fisRegd2h, 0x40, tfd.setWidth 8, (tfd >>> 8).setWidth 8] ++ cfisBytes cfis 4 10 ++
        List.replicate 6 0) rfl
    have status : fisFailed ([fisRegd2h, 0x40, tfd.setWidth 8, (tfd >>> 8).setWidth 8] ++
        cfisBytes cfis 4 10 ++ List.replicate 6 0) = true := (status_failed tfd).trans failed
    rw [status, Bool.and_true] at port
    exact ⟨(congrArg AhciPort.slots port).trans rfl, (congrArg AhciPort.setting port).trans rfl,
      (congrArg AhciPort.tfd port).trans rfl⟩
  | false =>
    obtain ⟨is, received, port⟩ := write_fis_port .regd2h
      ⟨v.hba, AhciPort.note { clearCi v.port slot with tfd := tfd } (.completed slot true)⟩
      ([fisRegd2h, 0x40, tfd.setWidth 8, (tfd >>> 8).setWidth 8] ++ cfisBytes cfis 4 10 ++
        List.replicate 6 0) rfl
    have status : fisFailed ([fisRegd2h, 0x40, tfd.setWidth 8, (tfd >>> 8).setWidth 8] ++
        cfisBytes cfis 4 10 ++ List.replicate 6 0) = false := (status_failed tfd).trans failed
    rw [status, Bool.and_false, Bool.or_false] at port
    refine ⟨(congrArg AhciPort.slots port).trans ?_, (congrArg AhciPort.setting port).trans rfl,
      (congrArg AhciPort.tfd port).trans rfl⟩
    simp [AhciPort.slots, AhciPort.note, clearCi, Slots.answer]

theorem ncq_slots (v : PortView) (slot : Nat) :
    (ahciWriteFisD2hNcq v slot).port.slots = v.port.slots.accept slot ∧
      (ahciWriteFisD2hNcq v slot).port.setting = v.port.setting := by
  obtain ⟨is, received, port⟩ := write_fis_port .regd2h
    ⟨v.hba, clearCi { v.port with tfd := ataSReady ||| ataSDsc } slot⟩
    ([fisRegd2h, 0, (ataSReady ||| ataSDsc).setWidth 8, 0] ++ List.replicate 16 0) rfl
  have status : fisFailed ([fisRegd2h, 0, (ataSReady ||| ataSDsc).setWidth 8, 0] ++
      List.replicate 16 0) = false := by decide
  rw [status, Bool.and_false, Bool.or_false] at port
  exact ⟨(congrArg AhciPort.slots port).trans rfl, (congrArg AhciPort.setting port).trans rfl⟩

theorem masked_failed (tfd : BitVec 32) : failedTfd (tfd &&& 0x77) = failedTfd tfd := by
  unfold failedTfd
  rw [BitVec.and_assoc, show (0x77 : BitVec 32) &&& ataSError = ataSError by decide]

theorem sdb_slots (v : PortView) (slot : Nat) (cfis : Cfis) (tfd : BitVec 32) :
    (ahciWriteFisSdb v slot cfis tfd).port.slots =
        (if failedTfd tfd then v.port.slots.fail slot v.port.delivers
        else v.port.slots.finish slot) ∧
      (ahciWriteFisSdb v slot cfis tfd).port.setting = v.port.setting := by
  unfold ahciWriteFisSdb
  have status : ∀ rest, fisFailed ([fisSetdevbits, 0x40, (tfd &&& 0x77).setWidth 8,
      (tfd >>> 8).setWidth 8] ++ rest) = failedTfd tfd := fun rest =>
    (status_failed (tfd &&& 0x77)).trans (masked_failed tfd)
  cases failed : failedTfd tfd with
  | true =>
    obtain ⟨is, received, port⟩ := write_fis_port .setdevbits
      ⟨v.hba, AhciPort.note { setErrCfis v.port (BitVec.ofNat 8 slot) ((tfd &&& 0x77).setWidth 8)
        ((tfd >>> 8).setWidth 8) cfis with tfd := (v.port.tfd &&& ~~~0x77) ||| (tfd &&& 0x77) }
        (.completed slot false)⟩
      ([fisSetdevbits, 0x40, (tfd &&& 0x77).setWidth 8, (tfd >>> 8).setWidth 8] ++ [0, 0, 0, 0]) rfl
    rw [status, failed, Bool.and_true] at port
    exact ⟨(congrArg AhciPort.slots port).trans rfl, (congrArg AhciPort.setting port).trans rfl⟩
  | false =>
    obtain ⟨is, received, port⟩ := write_fis_port .setdevbits
      ⟨v.hba, AhciPort.note { clearSact v.port slot with
        tfd := (v.port.tfd &&& ~~~0x77) ||| (tfd &&& 0x77) } (.completed slot true)⟩
      ([fisSetdevbits, 0x40, (tfd &&& 0x77).setWidth 8, (tfd >>> 8).setWidth 8] ++
        [(BitVec.twoPow 32 slot).setWidth 8, (BitVec.twoPow 32 slot >>> 8).setWidth 8,
          (BitVec.twoPow 32 slot >>> 16).setWidth 8, (BitVec.twoPow 32 slot >>> 24).setWidth 8]) rfl
    rw [status, failed, Bool.and_false, Bool.or_false] at port
    refine ⟨(congrArg AhciPort.slots port).trans ?_, (congrArg AhciPort.setting port).trans rfl⟩
    simp [AhciPort.slots, AhciPort.note, clearSact, Slots.finish]

theorem piosetup_slots (v : PortView) : (ahciWriteFisPiosetup v).port.slots = v.port.slots ∧
      (ahciWriteFisPiosetup v).port.setting = v.port.setting := by
  obtain ⟨is, received, port⟩ := write_fis_port .piosetup v
    (fisPiosetup :: List.replicate 19 0) rfl
  have status : fisFailed (fisPiosetup :: List.replicate 19 0) = false := by decide
  rw [status, Bool.and_false, Bool.or_false] at port
  exact ⟨(congrArg AhciPort.slots port).trans rfl, (congrArg AhciPort.setting port).trans rfl⟩

section

def tocRefused (c : Command) : Bool :=
  let format := c.acmd 9 >>> 6
  if format = 0 then decide (1 < c.acmd 6 ∧ c.acmd 6 ≠ 0xaa)
  else decide (format ≠ 1 ∧ format ≠ 2)

def modeRefused (c : Command) : Bool :=
  decide (c.acmd 2 >>> 6 ≠ 0) ||
    decide (c.acmd 2 &&& 0x3f ≠ modepageRwErrorRecovery ∧
      c.acmd 2 &&& 0x3f ≠ modepageCdCapabilities)

def packetRefused (c : Command) : Bool :=
  let op := c.acmd 0
  if op = testUnitReady ∨ op = preventAllow then false
  else if op = inquiry then decide (c.acmd 1 &&& 1 ≠ 0 ∧ c.acmd 2 ≠ 0)
  else if op = readCapacity then false
  else if op = readToc then tocRefused c
  else if op = reportLuns then false
  else if op = read10 ∨ op = read12 then false
  else if op = requestSense then false
  else if op = startStopUnit then decide (c.acmd 4 &&& 3 = 2)
  else if op = modeSense10 then modeRefused c
  else if op = getEventStatusNotification then decide (c.acmd 1 &&& 1 = 0)
  else true

def featureRefused (c : Command) : Bool :=
  if c.cfis 3 = ataSfEnabSataSf then decide (c.cfis 12 ≠ ataSataSfAn)
  else decide (c.cfis 3 ∉ ataSfCaches ∧ c.cfis 3 ≠ ataSfSetxfer)

def refused (atapi : Bool) (c : Command) : Bool :=
  let op := c.cfis 2
  if op = ataAtaIdentify then atapi || decide (c.prdtl = 0)
  else if op = ataSetfeatures then featureRefused c
  else if op = ataSetMulti then
    decide (c.cfis 12 ≠ 0 ∧ (128 < c.cfis 12 ∨ c.cfis 12 &&& (c.cfis 12 - 1) ≠ 0))
  else if op ∈ ataTransfers then false
  else if op = ataFlushcache ∨ op = ataFlushcache48 then false
  else if op = ataDataSetManagement then
    !decide (c.cfis 11 = 0 ∧ c.cfis 3 = ataDsmTrim ∧ c.cfis 13 = 0 ∧ c.cfis 12 = 1)
  else if op = ataSendFpdmaQueued then
    !decide (c.cfis 13 &&& 0x1f = ataSfpdmaDsm ∧ c.cfis 17 = 0 ∧ c.cfis 16 = ataDsmTrim ∧
      c.cfis 11 = 0 ∧ c.cfis 3 = 1)
  else if op = ataReadLogExt ∨ op = ataReadLogDmaExt then
    decide (atapi = true ∨ c.prdtl = 0 ∨ c.cfis 5 ≠ 0 ∨ c.cfis 9 ≠ 0 ∨ c.cfis 12 ≠ 1 ∨
      c.cfis 13 ≠ 0) || !decide (c.cfis 4 = 0x00 ∨ c.cfis 4 = 0x10 ∨ c.cfis 4 = 0x13)
  else if op = ataSecurityFreezeLock ∨ op = ataSmartCmd ∨ op = ataNop then true
  else if op = ataCheckPowerMode then false
  else if op ∈ ataIdles then false
  else if op = ataAtapiIdentify then !atapi
  else if op = ataPacketCmd then !atapi || packetRefused c
  else true

def zeroRead (c : Command) : Bool :=
  decide (c.cfis 2 = ataPacketCmd ∧ (c.acmd 0 = read10 ∨ c.acmd 0 = read12) ∧ atapiSectors c = 0)

/-- The ways a command can go that does not fault: what becomes of the accounts. -/
inductive Outcome (c : Command) (refuse : Bool) (s : Slots) (delivered : Bool) (p' : AhciPort) :
    Prop where
  | failed (refuses : refuse = true) (idle : p'.tfd &&& (ataSBusy ||| ataSDrq) = 0)
      (slots : p'.slots = s.fail c.slot delivered)
  | answered (serves : refuse = false) (plain : isNcq (c.cfis 2) = false)
      (slots : p'.slots = s.answer c.slot)
  | taken (k : Nat) (rest : List Nat) (aior : AhciIoreq) (serves : refuse = false)
      (plain : isNcq (c.cfis 2) = false) (free : s.iofhd = k :: rest) (slot : aior.slot = c.slot)
      (slots : p'.slots = s.take k rest aior)
  | accepted (k : Nat) (rest : List Nat) (aior : AhciIoreq) (serves : refuse = false)
      (queued : isNcq (c.cfis 2) = true) (free : s.iofhd = k :: rest) (slot : aior.slot = c.slot)
      (slots : p'.slots = (s.take k rest aior).accept c.slot)
  | trimmed (serves : refuse = false) (plain : isNcq (c.cfis 2) = false)
      (slots : p'.slots = (s.answer c.slot).settle c.slot)
  | trimmedNcq (serves : refuse = false) (queued : isNcq (c.cfis 2) = true)
      (slots : p'.slots = ((s.accept c.slot).finish c.slot).settle c.slot)
  | answeredTaken (k : Nat) (rest : List Nat) (aior : AhciIoreq) (serves : refuse = false)
      (zero : zeroRead c = true) (free : s.iofhd = k :: rest) (slot : aior.slot = c.slot)
      (slots : p'.slots = (s.answer c.slot).take k rest aior)

/-- A command that leaves the setting of the port alone and has one of the outcomes. -/
structure Handled (c : Command) (refuse : Bool) (s : Slots) (set_ : Setting) (delivered : Bool)
    (p' : AhciPort) : Prop where
  setting : p'.setting = set_
  outcome : Outcome c refuse s delivered p'

variable {g : Guest} {disk : Disk} {c : Command} {v v' : PortView}

theorem reply_failed {tfd : BitVec 32} (fails : failedTfd tfd = true)
    (idle : tfd &&& (ataSBusy ||| ataSDrq) = 0) :
    Handled c true v.port.slots v.port.setting v.port.delivers (c.reply tfd v).port := by
  obtain ⟨slots, setting, status⟩ := d2h_slots v c.slot c.cfis tfd
  rw [fails, if_pos rfl] at slots
  exact ⟨setting, .failed rfl (by rw [Command.reply, status]; exact idle) slots⟩

theorem abort_failed :
    Handled c true v.port.slots v.port.setting v.port.delivers (c.reply abortTfd v).port :=
  reply_failed (by decide) (by decide)

theorem changed_answered {s : Slots} {set_ : Setting} {d : Bool} (u : PortView)
    (slots : u.port.slots = s) (setting : u.port.setting = set_) (plain : isNcq (c.cfis 2) = false) :
    Handled c false s set_ d (c.reply doneTfd u).port := by
  obtain ⟨answered, kept, -⟩ := d2h_slots u c.slot c.cfis doneTfd
  rw [show failedTfd doneTfd = false by decide, if_neg (by decide), slots] at answered
  exact ⟨kept.trans setting, .answered rfl plain answered⟩

theorem done_answered (plain : isNcq (c.cfis 2) = false) :
    Handled c false v.port.slots v.port.setting v.port.delivers (c.reply doneTfd v).port :=
  changed_answered v rfl rfl plain

theorem succeed_answered (plain : isNcq (c.cfis 2) = false) :
    Handled c false v.port.slots v.port.setting v.port.delivers (c.succeed v).port := by
  obtain ⟨slots, setting, -⟩ := d2h_slots v c.slot c.ireason.cfis doneTfd
  exact ⟨setting, .answered rfl plain slots⟩

theorem refuse_failed (asc : BitVec 8) :
    Handled c true v.port.slots v.port.setting v.port.delivers (c.refuse asc v).port := by
  obtain ⟨slots, setting, status⟩ := d2h_slots
    ⟨v.hba, { v.port with senseKey := ataSenseIllegalRequest, asc := asc }⟩ c.slot c.ireason.cfis
    (senseTfd ataSenseIllegalRequest)
  refine ⟨setting, .failed rfl ?_ slots⟩
  exact (congrArg (· &&& (ataSBusy ||| ataSDrq)) status).trans (by decide)

theorem respond_answered {size : Nat} (plain : isNcq (c.cfis 2) = false)
    (ran : c.respond g size v = .ok v') :
    Handled c false v.port.slots v.port.setting v.port.delivers v'.port := by
  obtain ⟨_, -, done⟩ := bind_ok_split ran
  cases done
  exact succeed_answered plain

variable {k : Nat} {done : BitVec 32}

theorem pull_ioreq_cases {p p' : AhciPort} (pulled : pullIoreq p = .ok (k, p')) :
    ∃ rest, p.iofhd = k :: rest ∧ p' = { p with iofhd := rest } := by
  unfold pullIoreq at pulled
  cases free : p.iofhd with
  | nil =>
    rw [free] at pulled
    cases pulled
  | cons j rest =>
    rw [free] at pulled
    cases pulled
    exact ⟨rest, rfl, rfl⟩

theorem build_iov_slot {aior aior' : AhciIoreq} {entries : List PrdtEntry}
    (built : ahciBuildIov g disk aior entries = .ok aior') : aior'.slot = aior.slot := by
  unfold ahciBuildIov at built
  dsimp only at built
  split_ifs at built
  · cases built
    rfl
  · cases built
    rfl

theorem blockif_request_port (taken : blockifRequest disk v k = .ok v') :
    v'.port = { v.port with queued := k :: v.port.queued } := by
  unfold blockifRequest at taken
  split at taken
  · cases taken
    rfl
  · cases taken

theorem handed_over {rest : List Nat} {aior : AhciIoreq} {accepts : Prop} [Decidable accepts]
    (taken : blockifRequest disk (if accepts then ahciWriteFisD2hNcq ⟨v.hba, markBusy { v.port with iofhd := rest } k aior⟩ c.slot else ⟨v.hba, markBusy { v.port with iofhd := rest } k aior⟩) k = .ok v') :
    v'.port.setting = v.port.setting ∧ v'.port.slots =
      if accepts then (v.port.slots.take k rest aior).accept c.slot
      else v.port.slots.take k rest aior := by
  have port := blockif_request_port taken
  by_cases queued : accepts
  · rw [if_pos queued] at port ⊢
    obtain ⟨slots, setting⟩ := ncq_slots ⟨v.hba, markBusy { v.port with iofhd := rest } k aior⟩ c.slot
    rw [port]
    exact ⟨setting, congrArg (fun s : Slots => { s with queued := k :: s.queued }) slots⟩
  · rw [if_neg queued] at port ⊢
    rw [port]
    exact ⟨rfl, rfl⟩

theorem transfer_ncq (transfer : c.cfis 2 ∈ ataTransfers) :
    (rwRange c.cfis).2.2 = isNcq (c.cfis 2) := by
  have apart : c.cfis 2 ≠ ataSendFpdmaQueued := by
    intro send
    rw [send] at transfer
    revert transfer
    decide
  unfold rwRange isNcq
  by_cases queued : c.cfis 2 = ataWriteFpdmaQueued ∨ c.cfis 2 = ataReadFpdmaQueued
  · obtain write | read := queued
    · simp [write]
    · simp [read]
  · obtain ⟨write, read⟩ := not_or.mp queued
    rw [if_neg queued]
    split <;> simp [write, read, apart]

theorem handle_rw_slots (ran : ahciHandleRw g disk c done v = .ok v') :
    ∃ k rest aior, v.port.iofhd = k :: rest ∧ aior.slot = c.slot ∧
      v'.port.setting = v.port.setting ∧ v'.port.slots =
        if (rwRange c.cfis).2.2 = true ∧ done = 0 then
          (v.port.slots.take k rest aior).accept c.slot
        else v.port.slots.take k rest aior := by
  obtain ⟨⟨k, p⟩, pulled, ran⟩ := bind_ok_split ran
  obtain ⟨rest, free, left⟩ := pull_ioreq_cases pulled
  subst left
  obtain ⟨aior, built, ran⟩ := bind_ok_split ran
  have slot : aior.slot = c.slot := build_iov_slot built
  obtain ⟨setting, slots⟩ := handed_over ran
  exact ⟨k, rest, aior, free, slot, setting, slots⟩

theorem handle_flush_slots (ran : ahciHandleFlush disk c v = .ok v') :
    ∃ k rest aior, v.port.iofhd = k :: rest ∧ aior.slot = c.slot ∧
      v'.port.setting = v.port.setting ∧ v'.port.slots = v.port.slots.take k rest aior := by
  obtain ⟨⟨k, p⟩, pulled, ran⟩ := bind_ok_split ran
  obtain ⟨rest, free, left⟩ := pull_ioreq_cases pulled
  subst left
  have port := blockif_request_port ran
  exact ⟨k, rest, _, free, rfl, (congrArg AhciPort.setting port).trans rfl,
    (congrArg AhciPort.slots port).trans rfl⟩

theorem atapi_read_slots (ran : atapiRead g disk c done v = .ok v') :
    ∃ k rest aior, v.port.iofhd = k :: rest ∧ aior.slot = c.slot ∧
      v'.port.setting = v.port.setting ∧ v'.port.slots =
        if atapiSectors c = 0 then (v.port.slots.answer c.slot).take k rest aior
        else v.port.slots.take k rest aior := by
  obtain ⟨⟨k, p⟩, pulled, ran⟩ := bind_ok_split ran
  obtain ⟨aior, built, ran⟩ := bind_ok_split ran
  have slot : aior.slot = c.slot := build_iov_slot built
  have port := blockif_request_port ran
  obtain ⟨rest, free, left⟩ := pull_ioreq_cases pulled
  by_cases zero : atapiSectors c = 0
  · obtain ⟨slots, setting, -⟩ := d2h_slots v c.slot c.ireason.cfis doneTfd
    simp only [if_pos zero] at port free left
    have same : (c.succeed v).port.iofhd = v.port.iofhd := congrArg Slots.iofhd slots
    refine ⟨k, rest, aior, same.symm.trans free, slot, ?_, ?_⟩
    · rw [port, left]
      exact setting
    · rw [if_pos zero, port, left]
      exact congrArg (fun s : Slots => s.take k rest aior) slots
  · simp only [if_neg zero] at port free left
    refine ⟨k, rest, aior, free, slot, ?_, ?_⟩
    · rw [port, left]
      rfl
    · rw [if_neg zero, port, left]
      rfl

def Slots.endTrim (slot : Nat) (ncq first : Bool) : Slots :=
  if ncq then ((if first then s.accept slot else s).finish slot).settle slot
  else (s.answer slot).settle slot

theorem trim_reply_slots (c : Command) (v : PortView) (first : Bool) :
    (clearPending (trimReply c first v).port c.slot).slots =
        v.port.slots.endTrim c.slot (trimNcq c.cfis) first ∧
      (clearPending (trimReply c first v).port c.slot).setting = v.port.setting := by
  have succeeds : failedTfd (ataSReady ||| ataSDsc) = false := by decide
  have queued : ∀ u : PortView,
      (ahciWriteFisSdb u c.slot c.cfis (ataSReady ||| ataSDsc)).port.slots =
          u.port.slots.finish c.slot ∧
        (ahciWriteFisSdb u c.slot c.cfis (ataSReady ||| ataSDsc)).port.setting = u.port.setting := by
    intro u
    obtain ⟨slots, setting⟩ := sdb_slots u c.slot c.cfis (ataSReady ||| ataSDsc)
    exact ⟨slots, setting⟩
  unfold trimReply Slots.endTrim
  cases trimNcq c.cfis with
  | false =>
    obtain ⟨slots, setting, -⟩ := d2h_slots v c.slot c.cfis (ataSReady ||| ataSDsc)
    exact ⟨congrArg (fun s : Slots => s.settle c.slot) slots, setting⟩
  | true =>
    cases first with
    | false =>
      obtain ⟨slots, setting⟩ := queued v
      exact ⟨congrArg (fun s : Slots => s.settle c.slot) slots, setting⟩
    | true =>
      obtain ⟨accepted, kept⟩ := ncq_slots v c.slot
      obtain ⟨slots, setting⟩ := queued (ahciWriteFisD2hNcq v c.slot)
      rw [accepted] at slots
      exact ⟨congrArg (fun s : Slots => s.settle c.slot) slots, setting.trans kept⟩

theorem trim_slots {again : Bool} (ran : ahciHandleDsmTrim g disk c done v = .ok (v', again)) :
    (∃ p, v'.port = ahciCheckStopped p ∧ p.setting = v.port.setting ∧
      p.slots = v.port.slots.endTrim c.slot (trimNcq c.cfis) (decide (done = 0)) ∧
      again = decide (done ≠ 0)) ∨
    ∃ k rest aior, v.port.iofhd = k :: rest ∧ aior.slot = c.slot ∧
      v'.port.setting = v.port.setting ∧ (v'.port.slots =
        if trimNcq c.cfis = true ∧ done = 0 then
          (v.port.slots.take k rest aior).accept c.slot
        else v.port.slots.take k rest aior) ∧ again = false := by
  obtain ⟨buf, -, ran⟩ := bind_ok_split ran
  obtain ⟨entry, -, ran⟩ := bind_ok_split ran
  cases entry with
  | none =>
    obtain ⟨slots, setting⟩ := trim_reply_slots c v (decide (done = 0))
    cases ran
    exact .inl ⟨_, rfl, setting, slots, rfl⟩
  | some found =>
    refine .inr ?_
    simp only at ran
    obtain ⟨⟨k, p⟩, pulled, ran⟩ := bind_ok_split ran
    obtain ⟨rest, free, left⟩ := pull_ioreq_cases pulled
    subst left
    obtain ⟨u, taken, ran⟩ := bind_ok_split ran
    obtain ⟨setting, slots⟩ := handed_over taken
    cases ran
    exact ⟨k, rest, _, free, rfl, setting, slots, rfl⟩

theorem running_not_stopped {p : AhciPort} (running : p.cmd &&& cmdSt ≠ 0) :
    ahciCheckStopped p = p := by
  rw [ahciCheckStopped, if_neg (fun stopped => running stopped.1)]

theorem trim_first_handled (running : v.port.cmd &&& cmdSt ≠ 0)
    (same : trimNcq c.cfis = isNcq (c.cfis 2)) (ran : trimFirst g disk c v = .ok v') :
    Handled c false v.port.slots v.port.setting v.port.delivers v'.port := by
  unfold trimFirst at ran
  cases done : ahciHandleDsmTrim g disk c 0 v with
  | error fault =>
    rw [done] at ran
    cases ran
  | ok result =>
    rw [done] at ran
    cases ran
    obtain ⟨p, port, setting, slots, -⟩ | ⟨k, rest, aior, free, slot, setting, slots, -⟩ :=
      trim_slots done
    · have still : p.cmd &&& cmdSt ≠ 0 := by
        rw [show p.cmd = v.port.cmd from congrArg Setting.cmd setting]
        exact running
      rw [running_not_stopped still] at port
      rw [port]
      rw [same] at slots
      refine ⟨setting, ?_⟩
      cases queued : isNcq (c.cfis 2) with
      | false => exact .trimmed rfl queued (by rw [slots, queued]; rfl)
      | true => exact .trimmedNcq rfl queued (by rw [slots, queued]; rfl)
    · rw [same] at slots
      refine ⟨setting, ?_⟩
      cases queued : isNcq (c.cfis 2) with
      | false => exact .taken k rest aior rfl queued free slot (by rw [slots, queued]; rfl)
      | true => exact .accepted k rest aior rfl queued free slot (by rw [slots, queued]; rfl)

theorem inquiry_handled (plain : isNcq (c.cfis 2) = false) (ran : atapiInquiry g c v = .ok v') :
    Handled c (decide (c.acmd 1 &&& 1 ≠ 0 ∧ c.acmd 2 ≠ 0)) v.port.slots v.port.setting
      v.port.delivers v'.port := by
  unfold atapiInquiry at ran
  split_ifs at ran with vpd page
  · rw [decide_eq_false (fun both => both.2 page)]
    exact respond_answered plain ran
  · cases ran
    rw [decide_eq_true ⟨vpd, page⟩]
    exact refuse_failed 0x24
  · rw [decide_eq_false (fun both => vpd both.1)]
    exact respond_answered plain ran

theorem branch_handled {test : Prop} [Decidable test] {x y : Except Fault PortView} {a b : Bool}
    {s : Slots} {set_ : Setting} {d : Bool} (yes : test → x = .ok v' → Handled c a s set_ d v'.port)
    (no : ¬ test → y = .ok v' → Handled c b s set_ d v'.port) :
    (if test then x else y) = .ok v' → Handled c (if test then a else b) s set_ d v'.port := by
  by_cases holds : test
  · rw [if_pos holds, if_pos holds]
    exact yes holds
  · rw [if_neg holds, if_neg holds]
    exact no holds

section
variable (plain : isNcq (c.cfis 2) = false)
include plain

theorem toc_handled : atapiReadToc g c v = .ok v' →
    Handled c (tocRefused c) v.port.slots v.port.setting v.port.delivers v'.port := by
  refine branch_handled (fun _ ran => ?_) fun _ ran => ?_
  · split at ran
    · rename_i track
      cases ran
      rw [decide_eq_true track]
      exact refuse_failed 0x24
    · rename_i track
      rw [decide_eq_false track]
      exact respond_answered plain ran
  · by_cases one : c.acmd 9 >>> 6 = 1
    · rw [if_pos one] at ran
      rw [decide_eq_false (fun both => both.1 one)]
      exact respond_answered plain ran
    · rw [if_neg one] at ran
      by_cases two : c.acmd 9 >>> 6 = 2
      · rw [if_pos two] at ran
        rw [decide_eq_false (fun both => both.2 two)]
        exact respond_answered plain ran
      · rw [if_neg two] at ran
        cases ran
        rw [decide_eq_true ⟨one, two⟩]
        exact refuse_failed 0x24

theorem mode_sense_handled (ran : atapiModeSense g c v = .ok v') :
    Handled c (modeRefused c) v.port.slots v.port.setting v.port.delivers v'.port := by
  unfold atapiModeSense at ran
  unfold modeRefused
  dsimp only at ran
  split_ifs at ran with current recovery capabilities saved
  · simp only [current, recovery, ne_eq, not_true_eq_false, decide_false, false_and, Bool.or_false]
    exact respond_answered plain ran
  · simp only [current, capabilities, ne_eq, not_true_eq_false, decide_false, and_false,
      Bool.or_false]
    exact respond_answered plain ran
  · cases ran
    rw [decide_eq_true (show c.acmd 2 &&& 0x3f ≠ modepageRwErrorRecovery ∧
      c.acmd 2 &&& 0x3f ≠ modepageCdCapabilities from ⟨recovery, capabilities⟩), Bool.or_true]
    exact refuse_failed 0x24
  · cases ran
    rw [decide_eq_true (show c.acmd 2 >>> 6 ≠ 0 from current), Bool.true_or]
    exact refuse_failed 0x39
  · cases ran
    rw [decide_eq_true (show c.acmd 2 >>> 6 ≠ 0 from current), Bool.true_or]
    exact refuse_failed 0x24

theorem packet_read_handled (packet : c.cfis 2 = ataPacketCmd)
    (read : c.acmd 0 = read10 ∨ c.acmd 0 = read12) (ran : atapiRead g disk c 0 v = .ok v') :
    Handled c false v.port.slots v.port.setting v.port.delivers v'.port := by
  obtain ⟨k, rest, aior, free, slot, setting, slots⟩ := atapi_read_slots ran
  refine ⟨setting, ?_⟩
  by_cases zero : atapiSectors c = 0
  · rw [if_pos zero] at slots
    exact .answeredTaken k rest aior rfl (decide_eq_true ⟨packet, read, zero⟩) free slot slots
  · rw [if_neg zero] at slots
    exact .taken k rest aior rfl plain free slot slots

theorem stop_unit_handled (ran : atapiStartStopUnit c v = .ok v') :
    Handled c (decide (c.acmd 4 &&& 3 = 2)) v.port.slots v.port.setting v.port.delivers v'.port := by
  unfold atapiStartStopUnit at ran
  split_ifs at ran with eject
  · cases ran
    rw [decide_eq_true eject]
    exact refuse_failed 0x53
  · cases ran
    rw [decide_eq_false eject]
    exact succeed_answered plain

theorem event_handled (ran : atapiGetEventStatusNotification g c v = .ok v') :
    Handled c (decide (c.acmd 1 &&& 1 = 0)) v.port.slots v.port.setting v.port.delivers v'.port := by
  unfold atapiGetEventStatusNotification at ran
  split_ifs at ran with asynchronous
  · cases ran
    rw [decide_eq_true asynchronous]
    exact refuse_failed 0x24
  · rw [decide_eq_false asynchronous]
    exact respond_answered plain ran

end

theorem packet_handled (packet : c.cfis 2 = ataPacketCmd) : handlePacketCmd g disk c v = .ok v' →
    Handled c (packetRefused c) v.port.slots v.port.setting v.port.delivers v'.port := by
  have plain : isNcq (c.cfis 2) = false := by
    rw [packet]
    decide
  refine branch_handled (fun _ ran => ?_) fun _ => ?_
  · cases ran
    exact succeed_answered plain
  refine branch_handled (fun _ ran => inquiry_handled plain ran) fun _ => ?_
  refine branch_handled (fun _ ran => respond_answered plain ran) fun _ => ?_
  refine branch_handled (fun _ ran => toc_handled plain ran) fun _ => ?_
  refine branch_handled (fun _ ran => respond_answered plain ran) fun _ => ?_
  refine branch_handled (fun reads ran => packet_read_handled plain packet reads ran) fun _ => ?_
  refine branch_handled (fun _ ran => respond_answered plain ran) fun _ => ?_
  refine branch_handled (fun _ ran => stop_unit_handled plain ran) fun _ => ?_
  refine branch_handled (fun _ ran => mode_sense_handled plain ran) fun _ => ?_
  refine branch_handled (fun _ ran => event_handled plain ran) fun _ ran => ?_
  cases ran
  exact refuse_failed 0x20

section
variable (plain : isNcq (c.cfis 2) = false)
include plain

theorem piosetup_answered : Handled c false v.port.slots v.port.setting v.port.delivers
      (c.reply doneTfd (ahciWriteFisPiosetup v)).port :=
  changed_answered _ (piosetup_slots v).1 (piosetup_slots v).2 plain

theorem identify_handled (ran : handleIdentify g c v = .ok v') :
    Handled c (v.port.atapi || decide (c.prdtl = 0)) v.port.slots v.port.setting v.port.delivers
      v'.port := by
  unfold handleIdentify at ran
  split_ifs at ran with refuses
  · cases ran
    rw [show (v.port.atapi || decide (c.prdtl = 0)) = true by simpa using refuses]
    exact abort_failed
  · obtain ⟨_, -, done⟩ := bind_ok_split ran
    cases done
    rw [show (v.port.atapi || decide (c.prdtl = 0)) = false by simpa using refuses]
    exact piosetup_answered plain

theorem atapi_identify_handled (ran : handleAtapiIdentify g c v = .ok v') :
    Handled c (!v.port.atapi) v.port.slots v.port.setting v.port.delivers v'.port := by
  unfold handleAtapiIdentify at ran
  split at ran
  · rename_i disk
    cases ran
    rw [disk]
    exact abort_failed
  · rename_i packet
    obtain ⟨_, -, done⟩ := bind_ok_split ran
    cases done
    rw [show v.port.atapi = true by simpa using packet]
    exact piosetup_answered plain

theorem read_log_handled (ran : ahciHandleReadLog g c v = .ok v') : Handled c
      (decide (v.port.atapi = true ∨ c.prdtl = 0 ∨ c.cfis 5 ≠ 0 ∨ c.cfis 9 ≠ 0 ∨ c.cfis 12 ≠ 1 ∨
        c.cfis 13 ≠ 0) || !decide (c.cfis 4 = 0x00 ∨ c.cfis 4 = 0x10 ∨ c.cfis 4 = 0x13))
      v.port.slots v.port.setting v.port.delivers v'.port := by
  unfold ahciHandleReadLog at ran
  split at ran
  · rename_i wrong
    cases ran
    rw [decide_eq_true wrong, Bool.true_or]
    exact abort_failed
  · rename_i right
    rw [decide_eq_false right, Bool.false_or]
    split at ran
    · rename_i known
      rw [decide_eq_true known]
      obtain ⟨_, -, done⟩ := bind_ok_split ran
      cases done
      split
      · exact piosetup_answered plain
      · exact done_answered plain
    · rename_i unknown
      cases ran
      rw [decide_eq_false unknown]
      exact abort_failed

theorem setfeatures_handled :
    Handled c (featureRefused c) v.port.slots v.port.setting v.port.delivers
      (ahciSetfeatures c v).port := by
  have fails : ∀ u : PortView, Handled c true u.port.slots u.port.setting u.port.delivers
      (c.reply (ataSError ||| ataSReady ||| ataEAbort <<< 8) u).port := fun u =>
    reply_failed (by decide) (by decide)
  unfold ahciSetfeatures featureRefused
  by_cases sata : c.cfis 3 = ataSfEnabSataSf
  · rw [if_pos sata, if_pos sata]
    by_cases notify : c.cfis 12 = ataSataSfAn
    · rw [if_pos notify, decide_eq_false (not_not.mpr notify)]
      exact done_answered plain
    · rw [if_neg notify, decide_eq_true notify]
      exact fails v
  · rw [if_neg sata, if_neg sata]
    by_cases cache : c.cfis 3 ∈ ataSfCaches
    · rw [if_pos cache, decide_eq_false (fun both => both.1 cache)]
      exact done_answered plain
    · rw [if_neg cache]
      by_cases xfer : c.cfis 3 = ataSfSetxfer
      · rw [if_pos xfer, decide_eq_false (fun both => both.2 xfer)]
        exact changed_answered _ rfl rfl plain
      · rw [if_neg xfer, decide_eq_true ⟨cache, xfer⟩]
        exact fails v

theorem set_multi_handled : Handled c
      (decide (c.cfis 12 ≠ 0 ∧ (128 < c.cfis 12 ∨ c.cfis 12 &&& (c.cfis 12 - 1) ≠ 0)))
      v.port.slots v.port.setting v.port.delivers (ahciSetMulti c v).port := by
  unfold ahciSetMulti
  split
  · rename_i wrong
    rw [decide_eq_true wrong]
    exact reply_failed (by decide) (by decide)
  · rename_i right
    rw [decide_eq_false right]
    exact changed_answered _ rfl rfl plain

end

theorem transfer_handled (transfer : c.cfis 2 ∈ ataTransfers)
    (ran : ahciHandleRw g disk c 0 v = .ok v') :
    Handled c false v.port.slots v.port.setting v.port.delivers v'.port := by
  obtain ⟨k, rest, aior, free, slot, setting, slots⟩ := handle_rw_slots ran
  rw [transfer_ncq transfer] at slots
  refine ⟨setting, ?_⟩
  cases queued : isNcq (c.cfis 2) with
  | false => exact .taken k rest aior rfl queued free slot (by rw [slots, queued]; rfl)
  | true => exact .accepted k rest aior rfl queued free slot (by rw [slots, queued]; rfl)

theorem flush_handled (plain : isNcq (c.cfis 2) = false) (ran : ahciHandleFlush disk c v = .ok v') :
    Handled c false v.port.slots v.port.setting v.port.delivers v'.port := by
  obtain ⟨k, rest, aior, free, slot, setting, slots⟩ := handle_flush_slots ran
  exact ⟨setting, .taken k rest aior rfl plain free slot slots⟩

theorem trim_handled {test : Prop} [Decidable test] (running : v.port.cmd &&& cmdSt ≠ 0)
    (same : trimNcq c.cfis = isNcq (c.cfis 2))
    (ran : (if test then trimFirst g disk c v else .ok (c.reply abortTfd v)) = .ok v') :
    Handled c (!decide test) v.port.slots v.port.setting v.port.delivers v'.port := by
  split at ran
  · rename_i good
    rw [decide_eq_true good]
    exact trim_first_handled running same ran
  · rename_i bad
    cases ran
    rw [decide_eq_false bad]
    exact abort_failed

theorem dispatch_handled (running : v.port.cmd &&& cmdSt ≠ 0) : dispatchCmd g disk c v = .ok v' →
    Handled c (refused v.port.atapi c) v.port.slots v.port.setting v.port.delivers v'.port := by
  have plain : ∀ {op : BitVec 8}, isNcq op = false → c.cfis 2 = op → isNcq (c.cfis 2) = false :=
    fun known same => same ▸ known
  refine branch_handled (fun op ran => identify_handled (plain (by decide) op) ran) fun _ => ?_
  refine branch_handled (fun op ran => ?_) fun _ => ?_
  · cases ran
    exact setfeatures_handled (plain (by decide) op)
  refine branch_handled (fun op ran => ?_) fun _ => ?_
  · cases ran
    exact set_multi_handled (plain (by decide) op)
  refine branch_handled (fun op ran => transfer_handled op ran) fun _ => ?_
  refine branch_handled (fun op ran => ?_) fun _ => ?_
  · exact flush_handled (op.elim (plain (by decide)) (plain (by decide))) ran
  refine branch_handled (fun op ran => trim_handled running ?_ ran) fun _ => ?_
  · rw [trimNcq, op]
    decide
  refine branch_handled (fun op ran => trim_handled running ?_ ran) fun _ => ?_
  · rw [trimNcq, op]
    decide
  refine branch_handled (fun op ran => ?_) fun _ => ?_
  · exact read_log_handled (op.elim (plain (by decide)) (plain (by decide))) ran
  refine branch_handled (fun _ ran => ?_) fun _ => ?_
  · cases ran
    exact abort_failed
  refine branch_handled (fun op ran => ?_) fun _ => ?_
  · cases ran
    obtain ⟨slots, setting, -⟩ := d2h_slots v c.slot (Function.update c.cfis 12 0xff) doneTfd
    exact ⟨setting, .answered rfl (plain (by decide) op) slots⟩
  refine branch_handled (fun op ran => ?_) fun _ => ?_
  · cases ran
    have idle : ∀ op ∈ ataIdles, isNcq op = false := by decide
    exact done_answered (idle _ op)
  refine branch_handled (fun op ran => atapi_identify_handled (plain (by decide) op) ran)
    fun _ => ?_
  refine branch_handled (fun op ran => ?_) fun _ ran => ?_
  · cases packet : v.port.atapi with
    | false =>
      rw [if_pos packet] at ran
      cases ran
      exact abort_failed
    | true =>
      rw [if_neg (by simp [packet])] at ran
      exact packet_handled op ran
  · cases ran
    exact abort_failed

end
end Ahci
