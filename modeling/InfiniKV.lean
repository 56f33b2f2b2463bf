import InfiniKV.KeySoundness
import InfiniKV.LookupLoad
import InfiniKV.NoLostStore
import InfiniKV.LoadFailure
import InfiniKV.SchedulerConnector
import InfiniKV.Scheduler
import InfiniKV.SchedulePass
import InfiniKV.ScheduleStep
import InfiniKV.ExternalHits
import InfiniKV.System
import InfiniKV.StaleSave
import InfiniKV.StoreChains
import InfiniKV.PrefixClosed
import InfiniKV.DmaSlicing
import InfiniKV.ByteFile
import InfiniKV.SlotLog
import InfiniKV.NvmeFileLog
import InfiniKV.Extents
import InfiniKV.NvmeAddress
import InfiniKV.HostDevice
import InfiniKV.GpuFiles
import InfiniKV.BatchedXfer
import InfiniKV.GpuFileLog
import InfiniKV.GpuFilePool
import InfiniKV.Striping
import InfiniKV.SliceAccess
import InfiniKV.SameKeys
import InfiniKV.EngineInit
import InfiniKV.Prefetch
import InfiniKV.ChunkSizes
import InfiniKV.MatchedTokens
import InfiniKV.AsyncSave
import InfiniKV.SaveWindows
import InfiniKV.PyDict
import InfiniKV.RequestTable
import InfiniKV.Controllers
import InfiniKV.StatsMonitor
import InfiniKV.ChunkPool
import InfiniKV.RegistrationTables
import InfiniKV.BatchedRequest
import InfiniKV.EventLoop
import InfiniKV.WorkerFlush
import InfiniKV.PoolInit
import InfiniKV.TensorPlan
import InfiniKV.TensorMap
import InfiniKV.ControllerMemory
import InfiniKV.BlockAlignment
import InfiniKV.PrpCoverage
import InfiniKV.XferSlices
import InfiniKV.XferKernels
import InfiniKV.XferValidation
import InfiniKV.CreateFiles
import InfiniKV.NvmeNames
import InfiniKV.NvmeOpen
import InfiniKV.DeviceFiles
import InfiniKV.ControllerFiles
import InfiniKV.PrpMemory
import InfiniKV.RegisterInTurn
import InfiniKV.BatchRegistration
import InfiniKV.LruEvictor
import InfiniKV.SaveQueue
import InfiniKV.KeyStrings
import InfiniKV.MultimodalKeys
import InfiniKV.ControllerLookup
import InfiniKV.ClearPrefix
import InfiniKV.SegmentDatabase
import InfiniKV.Snapshot
import InfiniKV.SystemConfig
import InfiniKV.SubmissionQueue
import InfiniKV.SubmissionInvariant
import InfiniKV.SubmissionRounds
import InfiniKV.SubmissionOrder
import InfiniKV.CommandIds
import InfiniKV.CompletionQueue
import InfiniKV.LinkedList
import InfiniKV.FreeBlockQueue
import InfiniKV.BlockPool
import InfiniKV.KVCacheManager
import InfiniKV.KVCacheInvariant
import InfiniKV.KVCacheRuns
import InfiniKV.KVCacheSafety
import InfiniKV.FileOwners
import InfiniKV.FileStore
import InfiniKV.FileStoreRuns
import InfiniKV.WorkerTables
