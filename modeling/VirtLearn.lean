import VirtLearn.Virtio.DeviceSafety
import VirtLearn.Virtio.StackRefinement
import VirtLearn.Virtio.InFlight
import VirtLearn.Virtio.ReadLengths
import VirtLearn.Virtio.Drain
import VirtLearn.Virtio.OverRead
import VirtLearn.Virtio.Lifetime
import VirtLearn.Virtio.FileOperations
import VirtLearn.Virtio.QueueSetup
import VirtLearn.Virtio.RequestBuffers
import VirtLearn.Virtio.ExclusiveReads
import VirtLearn.Kvm.CpuidTopology
import VirtLearn.Kvm.MemorySize
import VirtLearn.Kvm.KvmInit
import VirtLearn.Kvm.BootImage
import VirtLearn.Vmx.MsrBitmap
import VirtLearn.Vmx.RegisterExchange
import VirtLearn.Vmx.SegmentAttributes
import VirtLearn.Vmx.VmcsAccess
import VirtLearn.Vfio.Cleanup
import VirtLearn.Guest.Console
import VirtLearn.Guest.Interrupts
import VirtLearn.Guest.PageTables
import VirtLearn.Guest.TableInvariant
import VirtLearn.Guest.ReturningHandlers
import VirtLearn.Guest.SystemDescriptor
import VirtLearn.Guest.UserReports
import VirtLearn.Guest.Boot
import VirtLearn.Boot.SectorAddresses
import VirtLearn.Boot.LoadModule
import VirtLearn.Guest.UserDevices
