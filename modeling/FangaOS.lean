import FangaOS.Lib.Run
import FangaOS.Lib.LruOrder
import FangaOS.Lib.MapUpdate
import FangaOS.Lib.Bytes
import FangaOS.Lib.KeyedList
import FangaOS.Lib.BitWord
import FangaOS.Lib.FrameAllocator
import FangaOS.Lib.Text
import FangaOS.Lib.Slice
import FangaOS.Lib.InternetChecksum
import FangaOS.Lib.Fifo
import FangaOS.Lib.TextZipper
import FangaOS.Lib.RecentLog
import FangaOS.Lib.RadixWalk
import FangaOS.Lib.SlotTable
import FangaOS.Lib.MachineInt
import FangaOS.Lib.MaxByKey
import FangaOS.Lib.CommonPrefix
import FangaOS.Drivers.Keyboard
import FangaOS.Elf.Parser
import FangaOS.Elf.Loader
import FangaOS.Io.Vt
import FangaOS.Io.VtManager
import FangaOS.Io.LineEditor
import FangaOS.Shell.History
import FangaOS.Shell.Completion
import FangaOS.Smp.SpinLock
import FangaOS.Task.Tcb
import FangaOS.Task.Thread
import FangaOS.Task.Coredump
import FangaOS.Task.Sync
import FangaOS.Task.Barrier
import FangaOS.Task.TaskMutex
import FangaOS.Task.Ipc
import FangaOS.Task.IpcQueue
import FangaOS.Task.Sigadv
import FangaOS.Task.SignalManager
import FangaOS.Task.Scheduler
import FangaOS.Task.SchedTimer
import FangaOS.Task.Pgroup
import FangaOS.Task.PgroupRun
import FangaOS.Memory.Addr
import FangaOS.Memory.Mmap
import FangaOS.Memory.Swap
import FangaOS.Memory.DemandPaging
import FangaOS.Memory.Pmm
import FangaOS.Memory.PmmInit
import FangaOS.Memory.Heap
import FangaOS.Memory.HeapRun
import FangaOS.Memory.PageTable
import FangaOS.Memory.Mapper
import FangaOS.Memory.MapperRun
import FangaOS.Memory.Protection
import FangaOS.Memory.Cow
import FangaOS.Net.Link
import FangaOS.Net.Ip
import FangaOS.Net.Tcp
import FangaOS.Net.Checksum
import FangaOS.Net.Route
import FangaOS.Storage.Cache
import FangaOS.Storage.Fat
import FangaOS.Storage.FatDirectory
import FangaOS.Storage.Gpt
import FangaOS.Storage.Mbr
import FangaOS.Fs.Path
import FangaOS.Fs.Memfs
import FangaOS.Fs.Namespace
import FangaOS.Fs.FileContents
import FangaOS.Fs.FileDescriptor
