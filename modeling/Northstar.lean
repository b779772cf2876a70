import Northstar.Lib.Bytes
import Northstar.Lib.Action
import Northstar.Lib.Device
import Northstar.Nsfs.Ondisk
import Northstar.Nsfs.Journal
import Northstar.Nsfs.Alloc
import Northstar.Nsfs.File
import Northstar.Nsfs.Directory
import Northstar.Nsfs.Namespace
import Northstar.Nsfs.Mount
import Northstar.Nsfs.TxView
import Northstar.Nsfs.Volume
import Northstar.Nsfs.AllocSpec
import Northstar.Lib.Ownership
import Northstar.Nsfs.BlockMap
import Northstar.Nsfs.Content
import Northstar.Nsfs.FileSpec
import Northstar.Nsfs.InodeSpec
import Northstar.Nsfs.Dirents
import Northstar.Nsfs.DirectorySpec
import Northstar.Lib.Bitmap
import Northstar.Lib.Word
import Northstar.Mm.BootInfo
import Northstar.Mm.Pmm
import Northstar.Mm.PmmSpec
import Northstar.Mm.PmmRun
import Northstar.Mm.Pte
import Northstar.Lib.Radix
import Northstar.Mm.Vmm
import Northstar.Mm.VmmView
import Northstar.Mm.PmmLegacy
import Northstar.Mm.PmmPages
import Northstar.Mm.VmmLayout
import Northstar.Mm.VmmShape
import Northstar.Mm.VmmWalk
import Northstar.Mm.VmmOps
import Northstar.Mm.VmmOwnership
import Northstar.Mm.VmmConserve
import Northstar.Mm.VmmProtect
import Northstar.Mm.VmmTeardown
import Northstar.Lib.Checked
import Northstar.Proc.Elf
import Northstar.Proc.ElfPlan
import Northstar.Lib.Ring
import Northstar.Proc.Pipe
import Northstar.Proc.PipeRun
import Northstar.Net.Dhcp
import Northstar.Net.Stack
import Northstar.Net.StackRun
import Northstar.Net.StackAddress
import Northstar.Lib.Linked
import Northstar.Proc.Scheduler
import Northstar.Proc.SchedulerQueues
import Northstar.Proc.SchedulerRun
import Northstar.Proc.SchedulerRemove
import Northstar.Proc.SchedulerWakeup
import Northstar.Proc.SchedulerOrder
import Northstar.Proc.Process
import Northstar.Lib.Lineage
import Northstar.Lib.Trace
import Northstar.Proc.ProcessTree
import Northstar.Proc.Descriptor
import Northstar.Proc.DescriptorRun
import Northstar.Net.Tcp
import Northstar.Net.TcpHandle
import Northstar.Net.TcpStream
import Northstar.Net.Checksum
import Northstar.Lib.Memory
import Northstar.Lib.Tiling
import Northstar.Proc.FdTable
import Northstar.Proc.Break
import Northstar.Proc.BreakPages
import Northstar.User.Malloc
import Northstar.User.MallocSpec
import Northstar.User.MallocRun
import Northstar.User.MallocSafety
import Northstar.Nsfs.Guard
import Northstar.Nsfs.GuardBodies
import Northstar.Nsfs.CommitSpec
import Northstar.Nsfs.MountSpec
import Northstar.Nsfs.CommittedHeaders
import Northstar.Lib.Segments
import Northstar.Vfs.Path
import Northstar.Lib.Window
import Northstar.Vfs.RamfsFile
import Northstar.Vfs.RamfsDir
import Northstar.Vfs.RamfsTree
import Northstar.Lib.Refcount
import Northstar.Vfs.OpenFile
import Northstar.Vfs.OpenFileRun
import Northstar.Vfs.Open
import Northstar.Vfs.Initramfs
