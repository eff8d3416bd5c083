import Bhyve.Block.Workers
import Bhyve.Vmm.Acceptance
import Bhyve.Vmm.Paging
import Bhyve.Vmm.Delivery
import Bhyve.Vmm.Wakeup
import Bhyve.Microbios.MemorySize
import Bhyve.Microbios.RegisterFrame
import Bhyve.Microboot.Modifiers
import Bhyve.Microboot.TextPages
import Bhyve.Rtc.Clock
import Bhyve.Pic.EdgePins
import Bhyve.Rtc.Callout
import Bhyve.Hpet.Interrupts
import Bhyve.Virtio.Accounting
import Bhyve.Virtio.BlockLifecycle
import Bhyve.Virtio.NetDelivery
import Bhyve.Kbdc.Scancodes
import Bhyve.TaskSwitch.Switch
import Bhyve.Ahci.Requests
import Bhyve.Ahci.Signalling
import Bhyve.E82545.Interrupts
import Bhyve.Xhci.EventDelivery
import Bhyve.E82545.ReceiveRing
import Bhyve.Nvme.QueueSafety
import Bhyve.E82545.Segmentation
import Bhyve.Nvme.TransferExact
import Bhyve.Passthru.Ownership
import Bhyve.Iommu.VtdMap
import Bhyve.Iommu.AmdviMap
import Bhyve.Cpus.RendezvousOrder
import Bhyve.Cpus.HaltDetection
import Bhyve.Fwctl.Exchanges
import Bhyve.Mevent.Registered
import Bhyve.Rfb.Authentication
import Bhyve.Pci.Capabilities
import Bhyve.Pci.Routing
import Bhyve.Gdb.Transparency
import Bhyve.Microbios.DiskResults
import Bhyve.Block.Geometry
import Bhyve.Microbios.TickCounter
import Bhyve.Vmm.SegmentLimits
import Bhyve.Microboot.Scroll
import Bhyve.Block.Bounce
import Bhyve.Mem.MmioRegistry
import Bhyve.Uart.ReceiveStream
import Bhyve.Virtio.ScsiTranslation
import Bhyve.Virtio.ConsoleData
import Bhyve.Pic.Initialisation
import Bhyve.Virtio.ChainParsing
import Bhyve.Virtio.EventIndex
import Bhyve.Pit.Latches
import Bhyve.Hpet.Comparator
import Bhyve.Vga.Dac
import Bhyve.Kbdc.MousePackets
import Bhyve.Vmm.VlapicTimer
import Bhyve.Virtio.IovAlgebra
import Bhyve.E82545.ScatteredSums
import Bhyve.Vmm.LvtMasking
import Bhyve.Vmm.SnapshotSave
import Bhyve.Vmm.PortIo
import Bhyve.Nvme.Ranges
import Bhyve.Ahci.Trim
import Bhyve.Pci.Windows
