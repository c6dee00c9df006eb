import MtRdma.Verified.SlotScan
import MtRdma.Verified.Runs
import MtRdma.Verified.BoundedMap
import MtRdma.Verified.CText
import MtRdma.Verified.MachineInt
import MtRdma.Verified.Interleaving
import MtRdma.Verified.Noninterference
import MtRdma.Verified.WriteBuffer
import MtRdma.Verified.FixedWindow
import MtRdma.Verified.Mutex
import MtRdma.Verified.CLines
import MtRdma.Verified.FlatJson
import MtRdma.Verified.LastWrite
import MtRdma.Verified.Descriptors
import MtRdma.Verified.KeyWalk
import MtRdma.Verified.Handles
import MtRdma.Verified.AccessCode
import MtRdma.Verified.LockedSections
import MtRdma.Verified.LockOrder
import MtRdma.Ports.SharedMemory
import MtRdma.Ports.SharedMemoryMap
import MtRdma.Ports.SharedMemoryTenant
import MtRdma.Ports.TenantPidMap
import MtRdma.Ports.TenantLedger
import MtRdma.Ports.TenantIsolation
import MtRdma.Ports.TenantLifecycle
import MtRdma.Ports.TenantProcesses
import MtRdma.Ports.CollectorGc
import MtRdma.Ports.GlobalTotals
import MtRdma.Ports.GcPaths
import MtRdma.Ports.HookState
import MtRdma.Ports.RdmaHooks
import MtRdma.Ports.HookSpec
import MtRdma.Ports.QpLedger
import MtRdma.Ports.HookAccounting
import MtRdma.Ports.MemoryQuota
import MtRdma.Ports.ChargedTenant
import MtRdma.Ports.HookFrame
import MtRdma.Ports.MandatoryMode
import MtRdma.Ports.CgroupIdentity
import MtRdma.Ports.HookInterleaving
import MtRdma.Ports.MrInterleaving
import MtRdma.Ports.HookPieces
import MtRdma.Ports.HookCounters
import MtRdma.Ports.QpPublication
import MtRdma.Ports.ProcessLimit
import MtRdma.Ports.GlobalLimit
import MtRdma.Ports.ThreadPublication
import MtRdma.Ports.CrashReclaim
import MtRdma.Ports.ProcessLife
import MtRdma.Ports.GcLiveness
import MtRdma.Ports.ProcStat
import MtRdma.Ports.ScanConvergence
import MtRdma.Ports.TenantTenure
import MtRdma.Ports.TableWrites
import MtRdma.Ports.PerformanceOptimizer
import MtRdma.Ports.BatchUpdates
import MtRdma.Ports.BatchInterleaving
import MtRdma.Ports.BatchToggles
import MtRdma.Ports.SegmentAttach
import MtRdma.Ports.EbpfSync
import MtRdma.Ports.ForkCounts
import MtRdma.Ports.CreationPaths
import MtRdma.Ports.VerbContexts
import MtRdma.Ports.DynamicPolicy
import MtRdma.Ports.RuntimeLimits
import MtRdma.Ports.PolicyFile
import MtRdma.Ports.PolicySync
import MtRdma.Ports.PolicyLocks
import MtRdma.Ports.CounterSigns
import MtRdma.Ports.MrReclaim
import MtRdma.Ports.MrRateLimiter
import MtRdma.Ports.AdmissionChecks
import MtRdma.Ports.PolicyChecks
import MtRdma.Ports.ResourceCache
import MtRdma.Ports.ProviderRequests
import MtRdma.Ports.FailedCalls
import MtRdma.Ports.ConfigLines
import MtRdma.Ports.ConfigLoad
import MtRdma.Ports.GcDescriptors
import MtRdma.Ports.MrControl
import MtRdma.Ports.ManagerJson
import MtRdma.Ports.TenantManager
import MtRdma.Ports.TenantEnumeration
import MtRdma.Ports.LogHandle
import MtRdma.Ports.TenantSegment
import MtRdma.Ports.TenantListings
import MtRdma.Ports.StoreSections
import MtRdma.Ports.GlobalOvershoot
import MtRdma.Ports.ManagerSessions
import MtRdma.Ports.GcEventLoop
import MtRdma.Ports.CacheSections
import MtRdma.Ports.TableSections
import MtRdma.Ports.CacheLifetime
import MtRdma.Ports.SystemLocks
