import RosKernel.Kernel.ExitAbsorbing
import RosKernel.Kernel.RetiredList
import RosKernel.Gui.SharedInputSafety
import RosKernel.Gwes.MoveWindow
import RosKernel.Gwes.WindowQueue
import RosKernel.Gwes.Windows
import RosKernel.Kernel.Quantum
import RosKernel.Kernel.EventOrder
import RosKernel.Kernel.SleepTimer
import RosKernel.Kernel.EventTeardown
import RosKernel.Filesystem.Geometry
import RosKernel.Memory.TableAccounting
import RosKernel.Memory.FileMappingViewRuns
import RosKernel.Memory.HeapRunway
import RosKernel.Memory.RecordPoolRuns
import RosKernel.Memory.UserHeapBlocks
import RosKernel.Loader.ImportBinding
import RosKernel.Kernel.ResourceRuns
import RosKernel.UserRuntime.SharedHeapRuns
import RosKernel.UserRuntime.Calendar
import RosKernel.UserRuntime.Sorting
import RosKernel.Loader.ModulePlacement
import RosKernel.Loader.ModuleReferences
import RosKernel.Filesystem.FileCacheRuns
import RosKernel.Loader.ProcessConstruction
import RosKernel.Kernel.AsyncLaunch
import RosKernel.Kernel.WorkerQueue
import RosKernel.Filesystem.PathLookup
import RosKernel.Kernel.ExitRecords
