import Bhyve.Microbios.Int13

/-!
The disk commands of the page the ROM shares with the host, and the setup command that
builds the memory map. The command block stands at BIOS_CMDS_ADDR: a result word, then
the arguments.
-/
namespace Microbios
open ByteMemory BlockIf

def cmdResults : Nat := biosCmdsAddr + 4
def cmdArgs : Nat := biosCmdsAddr + 8

def Machine.setResults (m : Machine) (results : BitVec 32) : Machine :=
  { m with mem := write32 m.mem cmdResults results }

/-- bhyve_disk_params.disk of the argument block; the same word as bhyve_disk_io_cmd's
    direction. -/
def paramsDisk (m : Machine) : BitVec 32 := read32 m.mem cmdArgs

def paramsUnit (m : Machine) : Nat := (paramsDisk m &&& 0x7f).toNat

def writeDiskParams (m : Machine) (bc : BlockCtxt) : Mem :=
  let g := blockifChs bc
  let mem := write32 m.mem cmdArgs (BitVec.ofNat 32 m.disks.num)
  let mem := write32 mem (cmdArgs + 4) (g.h.setWidth 32)
  let mem := write32 mem (cmdArgs + 8) (g.c.setWidth 32)
  let mem := write32 mem (cmdArgs + 12) (g.s.setWidth 32)
  let mem := write64 mem (cmdArgs + 16) (BitVec.ofNat 64 (bc.size / bc.sectsz))
  write32 mem (cmdArgs + 24) (BitVec.ofNat 32 bc.sectsz)

def microbiosDiskParams (m : Machine) : Except Fault Machine :=
  if paramsDisk m < 0x80 ∨ m.disks.num ≤ paramsUnit m then .ok (m.setResults einval)
  else
    match m.mddisk (paramsUnit m) with
    | .error fault => .error fault
    | .ok bc => .ok ({ m with mem := writeDiskParams m bc }.setResults 0)

structure DiskIoCmd where
  direction : BitVec 32
  disk : BitVec 32
  head : BitVec 32
  cylinder : BitVec 32
  sector : BitVec 32
  sectors : BitVec 32
  lba : BitVec 64
  addr : BitVec 64

def diskIoCmd (m : Machine) : DiskIoCmd :=
  { direction := read32 m.mem cmdArgs, disk := read32 m.mem (cmdArgs + 4),
    head := read32 m.mem (cmdArgs + 8), cylinder := read32 m.mem (cmdArgs + 12),
    sector := read32 m.mem (cmdArgs + 16), sectors := read32 m.mem (cmdArgs + 20),
    lba := read64 m.mem (cmdArgs + 24), addr := read64 m.mem (cmdArgs + 32) }

def DiskIoCmd.index (iocmd : DiskIoCmd) : Nat := (iocmd.disk &&& ~~~0x80).toNat

def resolveLba (m : Machine) (bc : BlockCtxt) : Machine × BitVec 64 :=
  let iocmd := diskIoCmd m
  if iocmd.lba = BitVec.allOnes 64 then
    let lba := (chsLba (blockifChs bc) iocmd.cylinder iocmd.head iocmd.sector).setWidth 64
    ({ m with mem := write64 m.mem (cmdArgs + 24) lba }, lba)
  else (m, iocmd.lba)

def microbiosDiskIoCmd (host : Host) (m : Machine) : Except Fault Machine :=
  let iocmd := diskIoCmd m
  if iocmd.disk < 0x80 then .ok (m.setResults 1)
  else
    match m.mddisk iocmd.index with
    | .error fault => .error fault
    | .ok bc =>
        let sectors := iocmd.sectors.toNat
        let gpa := iocmd.addr.toNat
        let bufMapped := host.mapped gpa (ioBytes bc sectors)
        let (m, lba) := resolveLba m bc
        if iocmd.direction ≠ 0 then
          let io := blockifWriteSync bc m.mem gpa bufMapped sectors lba.toNat
          let m := { m with disks := m.disks.set iocmd.index io.dest,
                            errno := io.errno.getD m.errno }
          .ok (m.setResults (if io.result < 0 then m.errno else 0))
        else
          let io := blockifReadSync bc m.mem gpa bufMapped sectors lba.toNat
          let m := { m with mem := io.dest, errno := io.errno.getD m.errno }
          .ok (m.setResults (if io.result ≤ 0 then m.errno else 0))

def e820Words (memsize : BitVec 32) : List (BitVec 32) :=
  [0x0, 0x0, 0x500, 0x0, 0x2,
   0x500, 0x0, 0xa0000 - 0x500, 0x0, 0x1,
   0xa0000, 0x0, 0x100000 - 0xa0000, 0x0, 0x2,
   0x100000, 0x0, memsize - 0x100000, 0x0, 0x1]

def writeE820Block (mem : Mem) (memsize : BitVec 32) : Mem :=
  let mem := write16 mem e820InfoBlock 4
  let mem := write16 mem (e820InfoBlock + 2) 20
  writeWords mem (e820InfoBlock + 4) (e820Words memsize)

def microbiosSetupShared (host : Host) (m : Machine) : Machine :=
  let mem := write8 m.mem bdaNumberOfDrives (BitVec.ofNat 8 m.disks.num)
  let mem := write16 mem bdaCom1 0x3f8
  let mem := write16 mem bdaMemSize 640
  let mem := write8 mem bdaTextRowsMinusOne 24
  let mem := write16 mem bdaTextColumns 80
  let mem := write8 mem bdaVidMode 3
  let mem := writeE820Block mem (BitVec.ofNat 32 host.lowmem)
  { m with mem := mem, e820Entries := 4,
           e820Tbl := some (m.e820Tbl.getD fun i => mem (e820InfoBlock + 4 + i)) }

end Microbios
