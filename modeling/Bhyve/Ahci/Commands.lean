import Bhyve.Ahci.Transfer

/-!
The handlers of the ATA and ATAPI commands. What they write to the memory of the guest is left out
but for its length, since the guest may write anything over it.
-/
namespace Ahci
open BitMasks

local instance decidableOpcode (op : BitVec 8) (ops : List (BitVec 8)) : Decidable (op ∈ ops) :=
  decidable_of_iff (ops.any fun other => decide (op = other)) (by simp)

local instance slots_nonzero : NeZero 32 := ⟨by decide⟩

def ataNop : BitVec 8 := 0x00
def ataDataSetManagement : BitVec 8 := 0x06
def ataReadLogExt : BitVec 8 := 0x2f
def ataReadLogDmaExt : BitVec 8 := 0x47
def ataReadFpdmaQueued : BitVec 8 := 0x60
def ataWriteFpdmaQueued : BitVec 8 := 0x61
def ataSendFpdmaQueued : BitVec 8 := 0x64
def ataPacketCmd : BitVec 8 := 0xa0
def ataAtapiIdentify : BitVec 8 := 0xa1
def ataSmartCmd : BitVec 8 := 0xb0
def ataSetMulti : BitVec 8 := 0xc6
def ataCheckPowerMode : BitVec 8 := 0xe5
def ataFlushcache : BitVec 8 := 0xe7
def ataFlushcache48 : BitVec 8 := 0xea
def ataAtaIdentify : BitVec 8 := 0xec
def ataSetfeatures : BitVec 8 := 0xef
def ataSecurityFreezeLock : BitVec 8 := 0xf5

/-- WRITE, WRITE48, WRITE_MUL, WRITE_MUL48, WRITE_DMA, WRITE_DMA48 and WRITE_FPDMA_QUEUED. -/
def ataWrites : List (BitVec 8) := [0x30, 0x34, 0xc5, 0x39, 0xca, 0x35, ataWriteFpdmaQueued]

/-- READ48, WRITE48, READ_MUL48, WRITE_MUL48, READ_DMA48 and WRITE_DMA48. -/
def ataLba48 : List (BitVec 8) := [0x24, 0x34, 0x29, 0x39, 0x25, 0x35]

/-- READ, WRITE, READ48, WRITE48, READ_MUL, WRITE_MUL, READ_MUL48, WRITE_MUL48, READ_DMA,
    WRITE_DMA, READ_DMA48, WRITE_DMA48, READ_FPDMA_QUEUED and WRITE_FPDMA_QUEUED. -/
def ataTransfers : List (BitVec 8) :=
  [0x20, 0x30, 0x24, 0x34, 0xc4, 0xc5, 0x29, 0x39, 0xc8, 0xca, 0x25, 0x35, ataReadFpdmaQueued,
    ataWriteFpdmaQueued]

/-- STANDBY_CMD, STANDBY_IMMEDIATE, IDLE_CMD, IDLE_IMMEDIATE, SLEEP, READ_VERIFY and
    READ_VERIFY48. -/
def ataIdles : List (BitVec 8) := [0xe2, 0xe0, 0xe3, 0xe1, 0xe6, 0x40, 0x42]

def ataDsmTrim : BitVec 8 := 0x01
def ataSfpdmaDsm : BitVec 8 := 0x00

def ataSfSetxfer : BitVec 8 := 0x03
def ataSfEnabSataSf : BitVec 8 := 0x10
def ataSataSfAn : BitVec 8 := 0x05

/-- ENAB_WCACHE, DIS_WCACHE, ENAB_RCACHE and DIS_RCACHE. -/
def ataSfCaches : List (BitVec 8) := [0x02, 0x82, 0xaa, 0x55]

def ataWdma0 : BitVec 8 := 0x20
def ataUdma0 : BitVec 8 := 0x40

def testUnitReady : BitVec 8 := 0x00
def requestSense : BitVec 8 := 0x03
def inquiry : BitVec 8 := 0x12
def startStopUnit : BitVec 8 := 0x1b
def preventAllow : BitVec 8 := 0x1e
def readCapacity : BitVec 8 := 0x25
def read10 : BitVec 8 := 0x28
def readToc : BitVec 8 := 0x43
def getEventStatusNotification : BitVec 8 := 0x4a
def modeSense10 : BitVec 8 := 0x5a
def reportLuns : BitVec 8 := 0xa0
def read12 : BitVec 8 := 0xa8

def modepageRwErrorRecovery : BitVec 8 := 0x01
def modepageCdCapabilities : BitVec 8 := 0x2a

def ataSenseIllegalRequest : BitVec 8 := 0x05

def isNcq (op : BitVec 8) : Bool :=
  op == ataWriteFpdmaQueued || op == ataReadFpdmaQueued || op == ataSendFpdmaQueued

def lba48 (b : Cfis) : BitVec 64 :=
  (b 10).setWidth 64 <<< 40 ||| (b 9).setWidth 64 <<< 32 ||| (b 8).setWidth 64 <<< 24 |||
    (b 6).setWidth 64 <<< 16 ||| (b 5).setWidth 64 <<< 8 ||| (b 4).setWidth 64

def lba28 (b : Cfis) : BitVec 64 :=
  (b 7 &&& 0xf).setWidth 64 <<< 24 ||| (b 6).setWidth 64 <<< 16 ||| (b 5).setWidth 64 <<< 8 |||
    (b 4).setWidth 64

def be16dec (high low : BitVec 8) : BitVec 32 := high.setWidth 32 <<< 8 ||| low.setWidth 32

def be32dec (b : Nat → BitVec 8) (i : Nat) : BitVec 32 :=
  be16dec (b i) (b (i + 1)) <<< 16 ||| be16dec (b (i + 2)) (b (i + 3))

def orElse (len other : BitVec 32) : BitVec 32 := if len = 0 then other else len

/-- The first sector of a read or a write, the number of sectors, and whether it is queued. -/
def rwRange (b : Cfis) : BitVec 64 × BitVec 32 × Bool :=
  if b 2 = ataWriteFpdmaQueued ∨ b 2 = ataReadFpdmaQueued then
    (lba48 b, orElse (be16dec (b 11) (b 3)) 65536, true)
  else if b 2 ∈ ataLba48 then (lba48 b, orElse (be16dec (b 13) (b 12)) 65536, false)
  else (lba28 b, orElse ((b 12).setWidth 32) 256, false)

variable (g : Guest)

def ahciHandleRw (disk : Disk) (c : Command) (done : BitVec 32) (v : PortView) :
    Except Fault PortView := do
  let (lba, sectors, ncq) := rwRange c.cfis
  let (k, p) ← pullIoreq v.port
  let aior ← ahciBuildIov g disk
    { p.ioreq k with
      cfis := c.table
      slot := c.slot
      len := sectors * disk.sectsz
      done := done
      readop := decide (c.cfis 2 ∉ ataWrites)
      brOffset := lba * disk.sectsz.setWidth 64 + done.setWidth 64 }
    (prdtEntries g c.table c.prdtl)
  let v := ⟨v.hba, markBusy p k aior⟩
  blockifRequest disk (if ncq = true ∧ done = 0 then ahciWriteFisD2hNcq v c.slot else v) k

def ahciHandleFlush (disk : Disk) (c : Command) (v : PortView) : Except Fault PortView := do
  let (k, p) ← pullIoreq v.port
  let aior := { p.ioreq k with cfis := c.table, slot := c.slot, len := 0, done := 0, more := false }
  blockifRequest disk ⟨v.hba, markBusy p k aior⟩ k

def ahciCheckStopped (p : AhciPort) : AhciPort :=
  if p.cmd &&& cmdSt = 0 ∧ p.pending = 0 then
    { p with
      ccs := 0
      cmd := p.cmd &&& ~~~(cmdCr ||| cmdCcsMask)
      ci := 0
      sact := 0
      waitforclear := false }
  else p

def trimLba (buf : Nat → BitVec 8) (at_ : Nat) : BitVec 64 :=
  (buf (at_ + 5)).setWidth 64 <<< 40 ||| (buf (at_ + 4)).setWidth 64 <<< 32 |||
    (buf (at_ + 3)).setWidth 64 <<< 24 ||| (buf (at_ + 2)).setWidth 64 <<< 16 |||
    (buf (at_ + 1)).setWidth 64 <<< 8 ||| (buf at_).setWidth 64

def trimLen (buf : Nat → BitVec 8) (at_ : Nat) : BitVec 32 := be16dec (buf (at_ + 7)) (buf (at_ + 6))

/-- The next entry with a length, and where it ends, or nothing when the list is at its end. -/
def trimScan (buf : Nat → BitVec 8) (len : BitVec 32) :
    Nat → BitVec 32 → Except Fault (Option (BitVec 64 × BitVec 32 × BitVec 32))
  | 0, _ => .error .hangs
  | fuel + 1, done =>
      if trimLen buf done.toNat ≠ 0 then
        .ok (some (trimLba buf done.toNat, trimLen buf done.toNat, done + 8))
      else if len ≤ done + 8 then .ok none
      else trimScan buf len fuel (done + 8)

def trimPlaces : Nat := 2 ^ 29

/-- DATA_SET_MANAGEMENT is not queued, and the other command of a TRIM, SEND_FPDMA_QUEUED, is. -/
def trimNcq (b : Cfis) : Bool := decide (b 2 ≠ ataDataSetManagement)

def trimBytes (b : Cfis) : BitVec 32 :=
  if trimNcq b then be16dec (b 11) (b 3) * 512 else be16dec (b 13) (b 12) * 512

def clearPending (p : AhciPort) (slot : Nat) : AhciPort :=
  { p with pending := remove p.pending slot }

variable (c : Command)

def trimReply (first : Bool) (v : PortView) : PortView :=
  if trimNcq c.cfis then
    ahciWriteFisSdb (if first then ahciWriteFisD2hNcq v c.slot else v) c.slot c.cfis
      (ataSReady ||| ataSDsc)
  else ahciWriteFisD2h v c.slot c.cfis (ataSReady ||| ataSDsc)

variable (disk : Disk)

/-- The port after a call, and whether the call goes on to ahci_handle_port. -/
def ahciHandleDsmTrim (c : Command)
    (done : BitVec 32) (v : PortView) : Except Fault (PortView × Bool) := do
  let len := trimBytes c.cfis
  let buf ← readPrdt g c
  let entry ← trimScan buf len trimPlaces done
  match entry with
  | none =>
      let v := trimReply c (decide (done = 0)) v
      .ok (⟨v.hba, ahciCheckStopped (clearPending v.port c.slot)⟩, decide (done ≠ 0))
  | some (elba, elen, next) => do
      let (k, p) ← pullIoreq v.port
      let aior := { p.ioreq k with
        cfis := c.table
        slot := c.slot
        len := len
        done := next
        more := decide (len ≠ next)
        brOffset := elba * disk.sectsz.setWidth 64
        brResid := (elen * disk.sectsz).setWidth 64 }
      let v := ⟨v.hba, markBusy p k aior⟩
      let v ← blockifRequest disk
        (if trimNcq c.cfis = true ∧ done = 0 then ahciWriteFisD2hNcq v c.slot else v) k
      .ok (v, false)

def abortTfd : BitVec 32 := ataEAbort <<< 8 ||| ataSReady ||| ataSError
def doneTfd : BitVec 32 := ataSReady ||| ataSDsc

def senseTfd (key : BitVec 8) : BitVec 32 := key.setWidth 32 <<< 12 ||| ataSReady ||| ataSError

def Command.reply (tfd : BitVec 32) (v : PortView) : PortView :=
  ahciWriteFisD2h v c.slot c.cfis tfd

def Command.ireason (c : Command) : Command :=
  { c with cfis := Function.update c.cfis 4 ((c.cfis 4 &&& ~~~7) ||| 1 ||| 2) }

def Command.succeed (v : PortView) : PortView := c.ireason.reply doneTfd v

def Command.refuse (asc : BitVec 8) (v : PortView) : PortView :=
  c.ireason.reply (senseTfd ataSenseIllegalRequest)
    ⟨v.hba, { v.port with senseKey := ataSenseIllegalRequest, asc := asc }⟩

def Command.respond (size : Nat) (v : PortView) : Except Fault PortView := do
  writePrdt g c size
  .ok (c.succeed v)

def ahciHandleReadLog (v : PortView) : Except Fault PortView :=
  if v.port.atapi = true ∨ c.prdtl = 0 ∨ c.cfis 5 ≠ 0 ∨ c.cfis 9 ≠ 0 ∨ c.cfis 12 ≠ 1 ∨
      c.cfis 13 ≠ 0 then
    .ok (c.reply abortTfd v)
  else if c.cfis 4 = 0x00 ∨ c.cfis 4 = 0x10 ∨ c.cfis 4 = 0x13 then do
    let v := if c.cfis 2 = ataReadLogExt then ahciWriteFisPiosetup v else v
    writePrdt g c 512
    .ok (c.reply doneTfd v)
  else .ok (c.reply abortTfd v)

def handleIdentify (v : PortView) : Except Fault PortView :=
  if v.port.atapi = true ∨ c.prdtl = 0 then .ok (c.reply abortTfd v)
  else do
    writePrdt g c 512
    .ok (c.reply doneTfd (ahciWriteFisPiosetup v))

def handleAtapiIdentify (v : PortView) : Except Fault PortView :=
  if v.port.atapi = false then .ok (c.reply abortTfd v)
  else do
    writePrdt g c 512
    .ok (c.reply doneTfd (ahciWriteFisPiosetup v))

def atapiInquiry (v : PortView) : Except Fault PortView :=
  if c.acmd 1 &&& 1 ≠ 0 then
    if c.acmd 2 = 0 then c.respond g (min 5 (c.acmd 4).toNat) v else .ok (c.refuse 0x24 v)
  else c.respond g (min 36 (c.acmd 4).toNat) v

def atapiReadCapacity (v : PortView) : Except Fault PortView :=
  c.respond g 8 v

def Command.allocation (c : Command) : Nat := (be16dec (c.acmd 7) (c.acmd 8)).toNat

def atapiReadToc (v : PortView) : Except Fault PortView :=
  let format := c.acmd 9 >>> 6
  if format = 0 then
    if 1 < c.acmd 6 ∧ c.acmd 6 ≠ 0xaa then .ok (c.refuse 0x24 v)
    else c.respond g (min c.allocation (if c.acmd 6 ≤ 1 then 20 else 12)) v
  else if format = 1 then c.respond g (min c.allocation 12) v
  else if format = 2 then c.respond g (min c.allocation 48) v
  else .ok (c.refuse 0x24 v)

def atapiReportLuns (v : PortView) : Except Fault PortView :=
  c.respond g 16 v

def atapiSectors (c : Command) : BitVec 32 :=
  if c.acmd 0 = read10 then be16dec (c.acmd 7) (c.acmd 8) else be32dec c.acmd 6

def atapiRead (c : Command) (done : BitVec 32) (v : PortView) : Except Fault PortView := do
  let len := atapiSectors c
  let v := if len = 0 then c.succeed v else v
  let (k, p) ← pullIoreq v.port
  let aior ← ahciBuildIov g disk
    { p.ioreq k with
      cfis := c.table
      slot := c.slot
      len := len * 2048
      done := done
      readop := true
      brOffset := (be32dec c.acmd 2).setWidth 64 * 2048 + done.setWidth 64 }
    (prdtEntries g c.table c.prdtl)
  blockifRequest disk ⟨v.hba, markBusy p k aior⟩ k

def atapiRequestSense (v : PortView) : Except Fault PortView :=
  c.respond g (min 64 (c.acmd 4).toNat) v

def atapiStartStopUnit (v : PortView) : Except Fault PortView :=
  if c.acmd 4 &&& 3 = 2 then .ok (c.refuse 0x53 v) else .ok (c.succeed v)

def atapiModeSense (v : PortView) : Except Fault PortView :=
  let pc := c.acmd 2 >>> 6
  let code := c.acmd 2 &&& 0x3f
  if pc = 0 then
    if code = modepageRwErrorRecovery then c.respond g (min c.allocation 16) v
    else if code = modepageCdCapabilities then c.respond g (min c.allocation 30) v
    else .ok (c.refuse 0x24 v)
  else if pc = 3 then .ok (c.refuse 0x39 v)
  else .ok (c.refuse 0x24 v)

def atapiGetEventStatusNotification (v : PortView) : Except Fault PortView :=
  if c.acmd 1 &&& 1 = 0 then .ok (c.refuse 0x24 v) else c.respond g (min c.allocation 8) v

def handlePacketCmd (c : Command) (v : PortView) : Except Fault PortView :=
  let op := c.acmd 0
  if op = testUnitReady ∨ op = preventAllow then .ok (c.succeed v)
  else if op = inquiry then atapiInquiry g c v
  else if op = readCapacity then atapiReadCapacity g c v
  else if op = readToc then atapiReadToc g c v
  else if op = reportLuns then atapiReportLuns g c v
  else if op = read10 ∨ op = read12 then atapiRead g disk c 0 v
  else if op = requestSense then atapiRequestSense g c v
  else if op = startStopUnit then atapiStartStopUnit c v
  else if op = modeSense10 then atapiModeSense g c v
  else if op = getEventStatusNotification then atapiGetEventStatusNotification g c v
  else .ok (c.refuse 0x20 v)

def ahciSetfeatures (v : PortView) : PortView :=
  let fail := ataSError ||| ataSReady ||| ataEAbort <<< 8
  if c.cfis 3 = ataSfEnabSataSf then
    c.reply (if c.cfis 12 = ataSataSfAn then doneTfd else fail) v
  else if c.cfis 3 ∈ ataSfCaches then c.reply doneTfd v
  else if c.cfis 3 = ataSfSetxfer then
    let mode := c.cfis 12 &&& 0xf8
    c.reply doneTfd
      ⟨v.hba, { v.port with
        xfermode :=
          if mode = ataWdma0 ∨ mode = ataUdma0 then c.cfis 12 &&& 0x7 else v.port.xfermode }⟩
  else c.reply fail v

def ahciSetMulti (v : PortView) : PortView :=
  if c.cfis 12 ≠ 0 ∧ (128 < c.cfis 12 ∨ c.cfis 12 &&& (c.cfis 12 - 1) ≠ 0) then
    c.reply (ataSError ||| ataSReady ||| ataEAbort <<< 8) v
  else c.reply doneTfd ⟨v.hba, { v.port with multSectors := c.cfis 12 }⟩

def trimFirst (c : Command) (v : PortView) : Except Fault PortView :=
  match ahciHandleDsmTrim g disk c 0 v with
  | .error fault => .error fault
  | .ok (v, _) => .ok v

def dispatchCmd (c : Command) (v : PortView) : Except Fault PortView :=
  let op := c.cfis 2
  if op = ataAtaIdentify then handleIdentify g c v
  else if op = ataSetfeatures then .ok (ahciSetfeatures c v)
  else if op = ataSetMulti then .ok (ahciSetMulti c v)
  else if op ∈ ataTransfers then ahciHandleRw g disk c 0 v
  else if op = ataFlushcache ∨ op = ataFlushcache48 then ahciHandleFlush disk c v
  else if op = ataDataSetManagement then
    if c.cfis 11 = 0 ∧ c.cfis 3 = ataDsmTrim ∧ c.cfis 13 = 0 ∧ c.cfis 12 = 1 then
      trimFirst g disk c v
    else .ok (c.reply abortTfd v)
  else if op = ataSendFpdmaQueued then
    if c.cfis 13 &&& 0x1f = ataSfpdmaDsm ∧ c.cfis 17 = 0 ∧ c.cfis 16 = ataDsmTrim ∧
        c.cfis 11 = 0 ∧ c.cfis 3 = 1 then
      trimFirst g disk c v
    else .ok (c.reply abortTfd v)
  else if op = ataReadLogExt ∨ op = ataReadLogDmaExt then ahciHandleReadLog g c v
  else if op = ataSecurityFreezeLock ∨ op = ataSmartCmd ∨ op = ataNop then
    .ok (c.reply abortTfd v)
  else if op = ataCheckPowerMode then
    .ok (Command.reply { c with cfis := Function.update c.cfis 12 0xff } doneTfd v)
  else if op ∈ ataIdles then .ok (c.reply doneTfd v)
  else if op = ataAtapiIdentify then handleAtapiIdentify g c v
  else if op = ataPacketCmd then
    if v.port.atapi = false then .ok (c.reply abortTfd v) else handlePacketCmd g disk c v
  else .ok (c.reply abortTfd v)

def ahciHandleCmd (c : Command) (v : PortView) : Except Fault PortView :=
  dispatchCmd g disk c ⟨v.hba, { v.port with tfd := v.port.tfd ||| ataSBusy }⟩

/-- The header and the command table of a slot, and pr_sc, which the code follows without a check. -/
def loadCommand (p : AhciPort) (slot : Nat) : Except Fault Command :=
  match p.bctx, p.cmdLst with
  | true, some cmdLst =>
      let (prdtl, ctba) := cmdHdr g cmdLst slot
      match g.host ctba (0x80 + prdtl * 16) with
      | some table => .ok ⟨slot, table, readCfis g table, prdtl⟩
      | none => .error .nullPointer
  | _, _ => .error .nullPointer

def controlFis (v : PortView) : PortView :=
  let v :=
    if c.cfis 15 &&& 0x04 ≠ 0 then ⟨v.hba, { v.port with reset := true }⟩
    else if v.port.reset then ahciPortReset ⟨v.hba, { v.port with reset := false }⟩
    else v
  ⟨v.hba, { v.port with ci := remove v.port.ci c.slot }⟩

def ahciHandleSlot (slot : Nat) (v : PortView) : Except Fault PortView :=
  match loadCommand g v.port slot with
  | .error fault => .error fault
  | .ok c =>
      if c.cfis 0 ≠ fisRegh2d then .ok v
      else if c.cfis 1 &&& 0x80 ≠ 0 then
        ahciHandleCmd g disk c ⟨v.hba, v.port.note (.issued slot (isNcq (c.cfis 2)))⟩
      else .ok (controlFis c v)
end Ahci
