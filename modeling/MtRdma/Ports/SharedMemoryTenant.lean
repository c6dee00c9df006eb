import MtRdma.Verified.SlotScan
import MtRdma.Ports.SharedMemory

/-!
# The tenant store (`shm/shared_memory_tenant.c`)

The segment `/rdma_intercept_tenant_shm_v2` holds one record per tenant and an
unordered array that maps pids to tenants.  As in `SharedMemory`, every
function models one critical section on the mapped segment; the callers deal
with a segment that cannot be mapped.

Time stamps and the version word are written and displayed but decide
nothing, and are left out.
-/

namespace MtRdma.Ports.SharedMemoryTenant

open Verified.SlotScan
open SharedMemory (Slot maxProcesses)

/-- `MAX_TENANTS`. -/
def maxTenants : Nat := 128

instance : NeZero maxTenants := ⟨by decide⟩

/-- `TENANT_NAME_MAX`. -/
def tenantNameMax : Nat := 64

/-- Index of a tenant record. -/
abbrev TenantIdx := Fin maxTenants

/-- `enum tenant_status`. -/
inductive TenantStatus where
  | inactive
  | active
  | suspended
  deriving Repr, DecidableEq

/-- `tenant_quota_t`. -/
structure TenantQuota where
  maxQpPerTenant : UInt32
  maxMrPerTenant : UInt32
  maxMemoryPerTenant : UInt64
  maxCqPerTenant : UInt32
  maxPdPerTenant : UInt32
  deriving Repr, DecidableEq

/-- `tenant_resource_usage_t`. -/
structure TenantResourceUsage where
  qpCount : Int32
  mrCount : Int32
  cqCount : Int32
  pdCount : Int32
  memoryUsed : UInt64
  totalQpCreates : UInt64
  totalQpDestroys : UInt64
  totalMrRegs : UInt64
  totalMrDeregs : UInt64
  deriving Repr, DecidableEq

def TenantResourceUsage.zero : TenantResourceUsage :=
  ⟨0, 0, 0, 0, 0, 0, 0, 0, 0⟩

/-- `tenant_info_t`. -/
structure TenantInfo where
  tenantId : UInt32
  tenantName : List UInt8
  status : TenantStatus
  quota : TenantQuota
  usage : TenantResourceUsage
  processCount : UInt32
  processes : Slot → Int

/-- `pid_tenant_mapping_t`. -/
structure PidTenantMapping where
  pid : Int
  tenantId : UInt32
  deriving Repr, DecidableEq

/-- `tenant_shared_memory_t`. -/
structure TenantSharedMemory where
  tenants : TenantIdx → TenantInfo
  pidMappings : Slot → PidTenantMapping
  activeTenantCount : UInt32
  totalProcessCount : UInt32

/-- A zeroed tenant record. -/
def TenantInfo.zero : TenantInfo where
  tenantId := 0
  tenantName := []
  status := .inactive
  quota := ⟨0, 0, 0, 0, 0⟩
  usage := .zero
  processCount := 0
  processes := fun _ => 0

/-- A freshly truncated segment. -/
def zeroed : TenantSharedMemory where
  tenants := fun _ => .zero
  pidMappings := fun _ => ⟨0, 0⟩
  activeTenantCount := 0
  totalProcessCount := 0

/-- The bounds check `tenant_id >= MAX_TENANTS`. -/
def tenantIdx? (tenantId : UInt32) : Option TenantIdx :=
  if h : tenantId.toNat < maxTenants then some ⟨tenantId.toNat, h⟩ else none

/-- Write back one tenant record. -/
def setTenant (t : TenantIdx) (info : TenantInfo) (s : TenantSharedMemory) :
    TenantSharedMemory :=
  { s with tenants := Function.update s.tenants t info }

/-- The pids of the mapping array, as the searches see them. -/
def mappedPids (s : TenantSharedMemory) : Slot → Int :=
  fun i => (s.pidMappings i).pid

/-! ## Tenant life cycle -/

/-- The quota used when the caller passes none. -/
def defaultQuota : TenantQuota :=
  ⟨100, 1000, 1024 * 1024 * 1024, 100, 100⟩

/-- The name used when the caller passes none: `unnamed`. -/
def defaultName : List UInt8 :=
  [0x75, 0x6e, 0x6e, 0x61, 0x6d, 0x65, 0x64]

/-- The record a new tenant starts with. -/
def freshTenant (tenantId : UInt32) (name : Option (List UInt8))
    (quota : Option TenantQuota) : TenantInfo where
  tenantId := tenantId
  tenantName := (name.getD defaultName).take (tenantNameMax - 1)
  status := .active
  quota := quota.getD defaultQuota
  usage := .zero
  processCount := 0
  processes := fun _ => 0

/-- `tenant_create`. -/
def tenantCreate (tenantId : UInt32) (name : Option (List UInt8))
    (quota : Option TenantQuota) (s : TenantSharedMemory) : Int × TenantSharedMemory :=
  if tenantId = 0 then (-1, s)
  else
    match tenantIdx? tenantId with
    | none => (-1, s)
    | some t =>
        if (s.tenants t).status ≠ .inactive then (-1, s)
        else
          (0, { setTenant t (freshTenant tenantId name quota) s with
            activeTenantCount := s.activeTenantCount + 1 })

/-- One iteration of the loop that drops the processes of a deleted tenant. -/
def sweepStep (tenantId : UInt32) (s : TenantSharedMemory) (i : Slot) :
    TenantSharedMemory :=
  if (s.pidMappings i).tenantId = tenantId then
    { s with
      pidMappings := Function.update s.pidMappings i ⟨0, 0⟩
      totalProcessCount := s.totalProcessCount - 1 }
  else s

/-- The whole loop. -/
def sweepMappings (tenantId : UInt32) (s : TenantSharedMemory) : TenantSharedMemory :=
  (List.finRange maxProcesses).foldl (sweepStep tenantId) s

/-- The tenant's side of a deletion, once its processes are gone.  Name, quota
and usage stay in the record. -/
def retireTenant (t : TenantIdx) (s : TenantSharedMemory) : TenantSharedMemory :=
  { setTenant t { s.tenants t with status := .inactive, processCount := 0 } s with
    activeTenantCount := s.activeTenantCount - 1 }

/-- `tenant_delete`. -/
def tenantDelete (tenantId : UInt32) (s : TenantSharedMemory) :
    Int × TenantSharedMemory :=
  if tenantId = 0 then (-1, s)
  else
    match tenantIdx? tenantId with
    | none => (-1, s)
    | some t =>
        if (s.tenants t).status = .inactive then (-1, s)
        else (0, retireTenant t (sweepMappings tenantId s))

/-- `tenant_get_info`: `none` is the return value `-1`. -/
def tenantGetInfo (tenantId : UInt32) (s : TenantSharedMemory) : Option TenantInfo :=
  match tenantIdx? tenantId with
  | none => none
  | some t => if (s.tenants t).status ≠ .inactive then some (s.tenants t) else none

/-- `tenant_set_status`. -/
def tenantSetStatus (tenantId : UInt32) (status : TenantStatus)
    (s : TenantSharedMemory) : Int × TenantSharedMemory :=
  match tenantIdx? tenantId with
  | none => (-1, s)
  | some t =>
      if (s.tenants t).status = .inactive then (-1, s)
      else (0, setTenant t { s.tenants t with status := status } s)

/-- `tenant_update_quota` with a quota record. -/
def tenantUpdateQuota (tenantId : UInt32) (quota : TenantQuota)
    (s : TenantSharedMemory) : Int × TenantSharedMemory :=
  match tenantIdx? tenantId with
  | none => (-1, s)
  | some t =>
      if (s.tenants t).status = .inactive then (-1, s)
      else (0, setTenant t { s.tenants t with quota := quota } s)

/-! ## Binding processes -/

/-- Put a pid into the first free cell of a tenant's process list; a full list
is left as it is. -/
def addProcess (pid : Int) (processes : Slot → Int) : Slot → Int :=
  match lookup processes 0 with
  | some j => Function.update processes j pid
  | none => processes

/-- Clear the first cell of a tenant's process list that holds `pid`. -/
def removeProcess (pid : Int) (processes : Slot → Int) : Slot → Int :=
  match lookup processes pid with
  | some j => Function.update processes j 0
  | none => processes

/-- The tenant's side of a new binding: its count and its list. -/
def enrollProcess (pid : Int) (info : TenantInfo) : TenantInfo :=
  { info with
    processCount := info.processCount + 1
    processes := addProcess pid info.processes }

/-- `tenant_bind_process`.  A pid that is mapped already keeps its slot and is
not counted again; its old tenant's bookkeeping is not touched. -/
def tenantBindProcess (pid : Int) (tenantId : UInt32) (s : TenantSharedMemory) :
    Int × TenantSharedMemory :=
  match tenantIdx? tenantId with
  | none => (-1, s)
  | some t =>
      if (s.tenants t).status ≠ .active then (-1, s)
      else
        match scan (mappedPids s) 0 pid with
        | (some i, _) =>
            (0, { s with pidMappings := Function.update s.pidMappings i ⟨pid, tenantId⟩ })
        | (none, some i) =>
            (0, { setTenant t (enrollProcess pid (s.tenants t)) s with
              pidMappings := Function.update s.pidMappings i ⟨pid, tenantId⟩
              totalProcessCount := s.totalProcessCount + 1 })
        | (none, none) => (-1, s)

/-- The tenant's side of an unbind: its list and its guarded count. -/
def dropProcess (pid : Int) (info : TenantInfo) : TenantInfo :=
  { info with
    processes := removeProcess pid info.processes
    processCount := if info.processCount > 0 then info.processCount - 1 else info.processCount }

/-- The tenant record named by slot `i` forgets `pid`. -/
def releaseFromTenant (pid : Int) (i : Slot) (s : TenantSharedMemory) : TenantSharedMemory :=
  match tenantIdx? (s.pidMappings i).tenantId with
  | some t => setTenant t (dropProcess pid (s.tenants t)) s
  | none => s

/-- `tenant_unbind_process`. -/
def tenantUnbindProcess (pid : Int) (s : TenantSharedMemory) :
    Int × TenantSharedMemory :=
  match lookup (mappedPids s) pid with
  | none => (-1, s)
  | some i =>
      (0, { releaseFromTenant pid i s with
        pidMappings := Function.update s.pidMappings i ⟨0, 0⟩
        totalProcessCount :=
          if s.totalProcessCount > 0 then s.totalProcessCount - 1 else s.totalProcessCount })

/-- `tenant_get_process_tenant`: `none` is the return value `-1`. -/
def tenantGetProcessTenant (pid : Int) (s : TenantSharedMemory) : Option UInt32 :=
  (lookup (mappedPids s) pid).map fun i => (s.pidMappings i).tenantId

/-! ## Usage records -/

/-- `tenant_update_resource_usage`. -/
def tenantUpdateResourceUsage (tenantId : UInt32) (usage : TenantResourceUsage)
    (s : TenantSharedMemory) : Int × TenantSharedMemory :=
  match tenantIdx? tenantId with
  | none => (-1, s)
  | some t =>
      if (s.tenants t).status ≠ .active then (-1, s)
      else (0, setTenant t { s.tenants t with usage := usage } s)

/-- `tenant_get_resource_usage`: `none` is the return value `-1`. -/
def tenantGetResourceUsage (tenantId : UInt32) (s : TenantSharedMemory) :
    Option TenantResourceUsage :=
  match tenantIdx? tenantId with
  | none => none
  | some t => if (s.tenants t).status ≠ .active then none else some (s.tenants t).usage

/-- The comparison of `tenant_check_resource_limit`.  Counts are promoted to
the unsigned type of the amount before they are added. -/
def limitExceeded (usage : TenantResourceUsage) (quota : TenantQuota)
    (resourceType : Int) (amount : UInt32) : Bool :=
  if resourceType = 0 then decide (quota.maxQpPerTenant < usage.qpCount.toUInt32 + amount)
  else if resourceType = 1 then decide (quota.maxMrPerTenant < usage.mrCount.toUInt32 + amount)
  else if resourceType = 2 then
    decide (quota.maxMemoryPerTenant < usage.memoryUsed + amount.toUInt64)
  else if resourceType = 3 then decide (quota.maxCqPerTenant < usage.cqCount.toUInt32 + amount)
  else if resourceType = 4 then decide (quota.maxPdPerTenant < usage.pdCount.toUInt32 + amount)
  else false

/-- `tenant_check_resource_limit`: `true` means exceeded. -/
def tenantCheckResourceLimit (tenantId : UInt32) (resourceType : Int) (amount : UInt32)
    (s : TenantSharedMemory) : Bool :=
  match tenantIdx? tenantId with
  | none => false
  | some t =>
      if (s.tenants t).status ≠ .active then true
      else limitExceeded (s.tenants t).usage (s.tenants t).quota resourceType amount

/-- A negative QP count is reset before it is compared. -/
def clampQp (usage : TenantResourceUsage) : TenantResourceUsage :=
  if usage.qpCount < 0 then { usage with qpCount := 0 } else usage

/-- One unit is taken from the QP quota. -/
def reserveQp (usage : TenantResourceUsage) : TenantResourceUsage :=
  { usage with
    qpCount := usage.qpCount + 1
    totalQpCreates := usage.totalQpCreates + 1 }

/-- `tenant_try_allocate_qp`. -/
def tenantTryAllocateQp (tenantId : UInt32) (s : TenantSharedMemory) :
    Bool × TenantSharedMemory :=
  match tenantIdx? tenantId with
  | none => (false, s)
  | some t =>
      if (s.tenants t).status ≠ .active then (false, s)
      else
        let usage := clampQp (s.tenants t).usage
        if (s.tenants t).quota.maxQpPerTenant ≤ usage.qpCount.toUInt32 then
          (false, setTenant t { s.tenants t with usage := usage } s)
        else (true, setTenant t { s.tenants t with usage := reserveQp usage } s)

end MtRdma.Ports.SharedMemoryTenant
