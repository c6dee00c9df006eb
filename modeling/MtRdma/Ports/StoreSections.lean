import MtRdma.Verified.LockedSections
import MtRdma.Ports.TenantListings
import MtRdma.Ports.TenantPidMap

/-!
# The tenant store, access by access

Every function of `shared_memory_tenant.c` takes the segment's spin lock, reads
and writes the records field by field, and releases the lock.  Elsewhere in this
development each call is one step.  Here it is the sequence of its accesses, and
any number of processes run their sequences against each other.

`store_calls_atomic` says that nothing is lost by the coarser view: whatever
the schedule, the calls in the order in which they release the lock are a run
of single steps with the same answers.  What holds in all such runs therefore
holds in the segment whenever the lock is free (`store_wf_when_free`).

`tenant_get_info` is special: it copies the record under the lock, but takes its
return value from the record after the lock has been released.  The copy is a
section; the return value is not part of one.

`memset` and `memcpy` go field by field here, and cell by cell where the field
is an array.  The times in the records, and the name as a sequence of bytes,
are left out.
-/

namespace MtRdma.Ports.StoreSections

open Verified.AccessCode
open Verified.LockedSections
open Verified.Runs
open Verified.SlotScan
open SharedMemory (Slot maxProcesses)
open SharedMemoryTenant
open TenantListings (tenantGetActiveList tenantGetStatistics)

variable {tenantId : UInt32}

/-- Accesses to the segment. -/
abbrev Access (β : Type) := Code TenantSharedMemory β

/-! ## Records -/

/-- Look at a field of a tenant. -/
def field {α : Type} (t : TenantIdx) (f : TenantInfo → α) : Access α :=
  .read fun s => f (s.tenants t)

/-- Write a field of a tenant. -/
def edit (t : TenantIdx) (f : TenantInfo → TenantInfo) : Access Unit :=
  .write fun s => setTenant t (f (s.tenants t)) s

/-- Write several fields of a tenant. -/
def editAll (t : TenantIdx) (fs : List (TenantInfo → TenantInfo)) : Access Unit :=
  .each (edit t) fs

/-- `memcpy` to the quota. -/
def setQuota (quota : TenantQuota) : List (TenantInfo → TenantInfo) :=
  [fun r => { r with quota.maxQpPerTenant := quota.maxQpPerTenant },
    fun r => { r with quota.maxMrPerTenant := quota.maxMrPerTenant },
    fun r => { r with quota.maxMemoryPerTenant := quota.maxMemoryPerTenant },
    fun r => { r with quota.maxCqPerTenant := quota.maxCqPerTenant },
    fun r => { r with quota.maxPdPerTenant := quota.maxPdPerTenant }]

/-- `memcpy` to the usage. -/
def setUsage (usage : TenantResourceUsage) : List (TenantInfo → TenantInfo) :=
  [fun r => { r with usage.qpCount := usage.qpCount },
    fun r => { r with usage.mrCount := usage.mrCount },
    fun r => { r with usage.cqCount := usage.cqCount },
    fun r => { r with usage.pdCount := usage.pdCount },
    fun r => { r with usage.memoryUsed := usage.memoryUsed },
    fun r => { r with usage.totalQpCreates := usage.totalQpCreates },
    fun r => { r with usage.totalQpDestroys := usage.totalQpDestroys },
    fun r => { r with usage.totalMrRegs := usage.totalMrRegs },
    fun r => { r with usage.totalMrDeregs := usage.totalMrDeregs }]

/-- The part of `memset` that clears the process list. -/
def clearProcesses : List (TenantInfo → TenantInfo) :=
  (List.finRange maxProcesses).map fun j r =>
    { r with processes := Function.update r.processes j 0 }

/-- `memset` of a record to zero. -/
def clearRecord : List (TenantInfo → TenantInfo) :=
  [fun r => { r with tenantId := 0 }, fun r => { r with tenantName := [] },
    fun r => { r with status := .inactive }] ++ setQuota ⟨0, 0, 0, 0, 0⟩ ++ setUsage .zero ++
    [fun r => { r with processCount := 0 }] ++ clearProcesses

/-- `memcpy` from the quota. -/
def copyQuota (t : TenantIdx) : Access TenantQuota := do
  let qp ← field t (·.quota.maxQpPerTenant)
  let mr ← field t (·.quota.maxMrPerTenant)
  let memory ← field t (·.quota.maxMemoryPerTenant)
  let cq ← field t (·.quota.maxCqPerTenant)
  let pd ← field t (·.quota.maxPdPerTenant)
  return ⟨qp, mr, memory, cq, pd⟩

/-- `memcpy` from the usage. -/
def copyUsage (t : TenantIdx) : Access TenantResourceUsage := do
  let qp ← field t (·.usage.qpCount)
  let mr ← field t (·.usage.mrCount)
  let cq ← field t (·.usage.cqCount)
  let pd ← field t (·.usage.pdCount)
  let memory ← field t (·.usage.memoryUsed)
  let qpCreates ← field t (·.usage.totalQpCreates)
  let qpDestroys ← field t (·.usage.totalQpDestroys)
  let mrRegs ← field t (·.usage.totalMrRegs)
  let mrDeregs ← field t (·.usage.totalMrDeregs)
  return ⟨qp, mr, cq, pd, memory, qpCreates, qpDestroys, mrRegs, mrDeregs⟩

/-- The part of `memcpy` that copies the process list. -/
def copyProcesses (t : TenantIdx) : Access (Slot → Int) :=
  (List.finRange maxProcesses).foldlM (fun copy j => do
    let pid ← field t (·.processes j)
    return Function.update copy j pid) fun _ => 0

/-- `memcpy` from a record. -/
def copyRecord (t : TenantIdx) : Access TenantInfo := do
  let tenantId ← field t (·.tenantId)
  let tenantName ← field t (·.tenantName)
  let status ← field t (·.status)
  let quota ← copyQuota t
  let usage ← copyUsage t
  let processCount ← field t (·.processCount)
  let processes ← copyProcesses t
  return ⟨tenantId, tenantName, status, quota, usage, processCount, processes⟩

/-! ## Counters and mappings of the segment -/

def setActiveTenantCount (count : UInt32) : Access Unit :=
  .write fun s => { s with activeTenantCount := count }

def setTotalProcessCount (count : UInt32) : Access Unit :=
  .write fun s => { s with totalProcessCount := count }

/-- Look at a field of a mapping. -/
def mapping {α : Type} (i : Slot) (f : PidTenantMapping → α) : Access α :=
  .read fun s => f (s.pidMappings i)

/-- Write a field of a mapping. -/
def editMapping (i : Slot) (f : PidTenantMapping → PidTenantMapping) : Access Unit :=
  .write fun s => { s with pidMappings := Function.update s.pidMappings i (f (s.pidMappings i)) }

/-- Write both fields of a mapping. -/
def setMapping (i : Slot) (pid : Int) (tenantId : UInt32) : Access Unit := do
  editMapping i fun m => { m with pid := pid }
  editMapping i fun m => { m with tenantId := tenantId }

/-- The slot in which `pid` is mapped. -/
def findMapping (pid : Int) : Access (Option Slot) :=
  .first (fun i => mapping i fun m => decide (m.pid = pid)) (List.finRange maxProcesses)

/-- The first cell of a tenant's process list that holds `pid`. -/
def findProcess (t : TenantIdx) (pid : Int) : Access (Option Slot) :=
  .first (fun j => field t fun r => decide (r.processes j = pid)) (List.finRange maxProcesses)

/-- The loop of `tenant_bind_process`: where `pid` is mapped, and the first free
slot passed on the way. -/
def scanMappings (pid : Int) : Option Slot → List Slot → Access (Option Slot × Option Slot)
  | hole, [] => return (none, hole)
  | hole, i :: rest => do
      if ← mapping i fun m => decide (m.pid = pid) then return (some i, hole)
      if hole = none then
        if ← mapping i fun m => decide (m.pid = 0) then scanMappings pid (some i) rest
        else scanMappings pid hole rest
      else scanMappings pid hole rest

/-! ## The sections -/

/-- `tenant_create`. -/
def createSection (t : TenantIdx) (tenantId : UInt32) (name : Option (List UInt8))
    (quota : Option TenantQuota) : Access Int := do
  let status ← field t (·.status)
  if status ≠ .inactive then return -1
  editAll t clearRecord
  edit t fun r => { r with tenantId := tenantId }
  edit t fun r => { r with tenantName := (name.getD defaultName).take (tenantNameMax - 1) }
  edit t fun r => { r with status := .active }
  editAll t (setQuota (quota.getD defaultQuota))
  let count ← .read (·.activeTenantCount)
  setActiveTenantCount (count + 1)
  return 0

/-- One turn of the loop of `tenant_delete`. -/
def sweepSlot (tenantId : UInt32) (i : Slot) : Access Unit := do
  let owner ← mapping i (·.tenantId)
  if owner = tenantId then
    setMapping i 0 0
    let total ← .read (·.totalProcessCount)
    setTotalProcessCount (total - 1)

/-- The loop. -/
def sweepSlots (tenantId : UInt32) : Access Unit :=
  .each (sweepSlot tenantId) (List.finRange maxProcesses)

/-- The tenant's side of `tenant_delete`. -/
def retireSection (t : TenantIdx) : Access Unit := do
  edit t fun r => { r with status := .inactive }
  edit t fun r => { r with processCount := 0 }
  let count ← .read (·.activeTenantCount)
  setActiveTenantCount (count - 1)

/-- `tenant_delete`. -/
def deleteSection (t : TenantIdx) (tenantId : UInt32) : Access Int := do
  let status ← field t (·.status)
  if status = .inactive then return -1
  sweepSlots tenantId
  retireSection t
  return 0

/-- `tenant_set_status`. -/
def setStatusSection (t : TenantIdx) (new : TenantStatus) : Access Int := do
  let status ← field t (·.status)
  if status = .inactive then return -1
  edit t fun r => { r with status := new }
  return 0

/-- `tenant_update_quota`. -/
def updateQuotaSection (t : TenantIdx) (quota : TenantQuota) : Access Int := do
  let status ← field t (·.status)
  if status = .inactive then return -1
  editAll t (setQuota quota)
  return 0

/-- The first cell of a tenant's process list that holds `old` gets `new`. -/
def replaceProcess (t : TenantIdx) (old new : Int) : Access Unit := do
  match ← findProcess t old with
  | some j => edit t fun r => { r with processes := Function.update r.processes j new }
  | none => pure ()

/-- A new process: it is counted, mapped and listed. -/
def enrollSection (t : TenantIdx) (i : Slot) (pid : Int) (tenantId : UInt32) : Access Unit := do
  let count ← field t (·.processCount)
  edit t fun r => { r with processCount := count + 1 }
  let total ← .read (·.totalProcessCount)
  setTotalProcessCount (total + 1)
  setMapping i pid tenantId
  replaceProcess t 0 pid

/-- `tenant_bind_process`. -/
def bindSection (t : TenantIdx) (pid : Int) (tenantId : UInt32) : Access Int := do
  let status ← field t (·.status)
  if status ≠ .active then return -1
  match ← scanMappings pid none (List.finRange maxProcesses) with
  | (some i, _) =>
      setMapping i pid tenantId
      return 0
  | (none, some i) =>
      enrollSection t i pid tenantId
      return 0
  | (none, none) => return -1

/-- The tenant's side of `tenant_unbind_process`. -/
def dropSection (t : TenantIdx) (pid : Int) : Access Unit := do
  replaceProcess t pid 0
  let count ← field t (·.processCount)
  if count > 0 then edit t fun r => { r with processCount := count - 1 }

/-- The tenant that slot `i` names forgets `pid`.  Only numbers in range are ever
bound. -/
def releaseSection (pid : Int) (i : Slot) : Access Unit := do
  let owner ← mapping i (·.tenantId)
  match tenantIdx? owner with
  | some t => dropSection t pid
  | none => pure ()

/-- `tenant_unbind_process`. -/
def unbindSection (pid : Int) : Access Int := do
  match ← findMapping pid with
  | none => return -1
  | some i =>
      releaseSection pid i
      setMapping i 0 0
      let total ← .read (·.totalProcessCount)
      if total > 0 then setTotalProcessCount (total - 1)
      return 0

/-- `tenant_get_process_tenant`. -/
def getProcessTenantSection (pid : Int) : Access (Option UInt32) := do
  match ← findMapping pid with
  | none => return none
  | some i => return some (← mapping i (·.tenantId))

/-- `tenant_update_resource_usage`. -/
def updateUsageSection (t : TenantIdx) (usage : TenantResourceUsage) : Access Int := do
  let status ← field t (·.status)
  if status ≠ .active then return -1
  editAll t (setUsage usage)
  return 0

/-- `tenant_get_resource_usage`. -/
def getUsageSection (t : TenantIdx) : Access (Option TenantResourceUsage) := do
  let status ← field t (·.status)
  if status ≠ .active then return none
  return some (← copyUsage t)

/-- The switch of `tenant_check_resource_limit`. -/
def exceededSection (t : TenantIdx) (resourceType : Int) (amount : UInt32) : Access Bool := do
  if resourceType = 0 then
    let used ← field t (·.usage.qpCount)
    let max ← field t (·.quota.maxQpPerTenant)
    return decide (max < used.toUInt32 + amount)
  else if resourceType = 1 then
    let used ← field t (·.usage.mrCount)
    let max ← field t (·.quota.maxMrPerTenant)
    return decide (max < used.toUInt32 + amount)
  else if resourceType = 2 then
    let used ← field t (·.usage.memoryUsed)
    let max ← field t (·.quota.maxMemoryPerTenant)
    return decide (max < used + amount.toUInt64)
  else if resourceType = 3 then
    let used ← field t (·.usage.cqCount)
    let max ← field t (·.quota.maxCqPerTenant)
    return decide (max < used.toUInt32 + amount)
  else if resourceType = 4 then
    let used ← field t (·.usage.pdCount)
    let max ← field t (·.quota.maxPdPerTenant)
    return decide (max < used.toUInt32 + amount)
  else return false

/-- `tenant_check_resource_limit`. -/
def checkLimitSection (t : TenantIdx) (resourceType : Int) (amount : UInt32) : Access Bool := do
  let status ← field t (·.status)
  if status ≠ .active then return true
  exceededSection t resourceType amount

/-- A negative QP count is reset. -/
def clampSection (t : TenantIdx) : Access Unit := do
  let count ← field t (·.usage.qpCount)
  if count < 0 then edit t fun r => { r with usage.qpCount := 0 }

/-- `tenant_try_allocate_qp`. -/
def tryAllocateQpSection (t : TenantIdx) : Access Bool := do
  let status ← field t (·.status)
  if status ≠ .active then return false
  clampSection t
  let count ← field t (·.usage.qpCount)
  let max ← field t (·.quota.maxQpPerTenant)
  if max ≤ count.toUInt32 then return false
  edit t fun r => { r with usage.qpCount := count + 1 }
  let creates ← field t (·.usage.totalQpCreates)
  edit t fun r => { r with usage.totalQpCreates := creates + 1 }
  return true

/-- One turn of the loop of `tenant_get_active_list`. -/
def visitActive (t : TenantIdx) : Access (Option TenantInfo) := do
  let status ← field t (·.status)
  if status = .active then return some (← copyRecord t)
  return none

/-- `tenant_get_active_list`. -/
def activeListSection (maxCount : Nat) : Access (List TenantInfo) :=
  .collect visitActive (fun count => decide (count < maxCount)) 0 (List.finRange maxTenants)

/-- `tenant_get_statistics`. -/
def statisticsSection (t : TenantIdx) : Access (Option (UInt64 × UInt64)) := do
  let status ← field t (·.status)
  if status ≠ .active then return none
  let qpCreates ← field t (·.usage.totalQpCreates)
  let mrRegs ← field t (·.usage.totalMrRegs)
  return some (qpCreates, mrRegs)

/-! ## Undisturbed, they are the functions -/

section Run

variable {t : TenantIdx} {s : TenantSharedMemory}

@[simp] theorem run_field {α : Type} (t : TenantIdx) (f : TenantInfo → α)
    (s : TenantSharedMemory) : (field t f).run s = (f (s.tenants t), s) := rfl

@[simp] theorem run_edit (t : TenantIdx) (f : TenantInfo → TenantInfo) (s : TenantSharedMemory) :
    (edit t f).run s = ((), setTenant t (f (s.tenants t)) s) := rfl

@[simp] theorem run_mapping {α : Type} (i : Slot) (f : PidTenantMapping → α)
    (s : TenantSharedMemory) : (mapping i f).run s = (f (s.pidMappings i), s) := rfl

@[simp] theorem setTenant_setTenant (r r' : TenantInfo) :
    setTenant t r' (setTenant t r s) = setTenant t r' s := by
  simp [setTenant]

@[simp] theorem setTenant_get (r : TenantInfo) : (setTenant t r s).tenants t = r := by
  simp [setTenant]

@[simp] theorem run_editAll (t : TenantIdx) (fs : List (TenantInfo → TenantInfo))
    (s : TenantSharedMemory) : (editAll t fs).run s =
      ((), setTenant t (fs.foldl (fun r f => f r) (s.tenants t)) s) := by
  rw [editAll, Code.run_each]
  congr 1
  induction fs generalizing s with
  | nil => simp [setTenant]
  | cons f fs ih =>
      rw [List.foldl_cons, ih, run_edit, setTenant_setTenant, setTenant_get]
      rfl

@[simp] theorem run_setMapping (i : Slot) (pid : Int) (tenantId : UInt32)
    (s : TenantSharedMemory) : (setMapping i pid tenantId).run s =
      ((), { s with pidMappings := Function.update s.pidMappings i ⟨pid, tenantId⟩ }) := by
  simp [setMapping, editMapping]

theorem run_findMapping (pid : Int) (s : TenantSharedMemory) :
    (findMapping pid).run s = (lookup (mappedPids s) pid, s) :=
  Code.run_first (fun _ => rfl) _

theorem run_findProcess (t : TenantIdx) (pid : Int) (s : TenantSharedMemory) :
    (findProcess t pid).run s = (lookup (s.tenants t).processes pid, s) :=
  Code.run_first (fun _ => rfl) _

theorem run_scanMappings (pid : Int) (s : TenantSharedMemory) (slots : List Slot) :
    ∀ hole, (scanMappings pid hole slots).run s =
      (scanFrom (mappedPids s) 0 pid hole slots, s) := by
  induction slots with
  | nil => intro hole; rfl
  | cons i rest ih =>
      intro hole
      rw [scanMappings, scanFrom, Code.run_bind, run_mapping]
      by_cases hfound : (s.pidMappings i).pid = pid
      · simp [hfound, mappedPids]
      · cases hole with
        | some j => simp [hfound, mappedPids, ih]
        | none =>
            by_cases hhole : (s.pidMappings i).pid = 0
            · have hpid : 0 ≠ pid := fun h => hfound (hhole.trans h)
              simp [hpid, hhole, mappedPids, ih]
            · simp [hfound, hhole, mappedPids, ih]

theorem foldl_clearProcesses (r : TenantInfo) :
    clearProcesses.foldl (fun r f => f r) r = { r with processes := fun _ => 0 } := by
  have hfold : ∀ (js : List Slot) (r : TenantInfo),
      js.foldl (fun r j => { r with processes := Function.update r.processes j 0 }) r =
        { r with processes := js.foldl (fun p j => Function.update p j 0) r.processes } := by
    intro js
    induction js with
    | nil => intro r; rfl
    | cons j js ih => intro r; exact ih _
  rw [clearProcesses, List.foldl_map, hfold, foldl_update_finRange fun _ => (0 : Int)]

/-- What `memset` leaves. -/
theorem foldl_clearRecord (r : TenantInfo) : clearRecord.foldl (fun r f => f r) r = .zero := by
  rw [clearRecord, List.foldl_append, foldl_clearProcesses]
  rfl

theorem run_copyProcesses (t : TenantIdx) (s : TenantSharedMemory) :
    (copyProcesses t).run s = ((s.tenants t).processes, s) := by
  rw [copyProcesses, Code.run_foldlM fun _ _ => rfl]
  exact congrArg (·, s) (foldl_update_finRange (s.tenants t).processes _)

@[simp] theorem run_copyRecord (t : TenantIdx) (s : TenantSharedMemory) :
    (copyRecord t).run s = (s.tenants t, s) := by
  simp [copyRecord, copyQuota, copyUsage, run_copyProcesses]

@[simp] theorem foldl_setQuota (quota : TenantQuota) (r : TenantInfo) :
    (setQuota quota).foldl (fun r f => f r) r = { r with quota := quota } := rfl

@[simp] theorem foldl_setUsage (usage : TenantResourceUsage) (r : TenantInfo) :
    (setUsage usage).foldl (fun r f => f r) r = { r with usage := usage } := rfl

theorem run_createSection (hzero : tenantId ≠ 0) (ht : tenantIdx? tenantId = some t)
    (name : Option (List UInt8)) (quota : Option TenantQuota) :
    (createSection t tenantId name quota).run s = tenantCreate tenantId name quota s := by
  by_cases hst : (s.tenants t).status = .inactive
  · simp only [createSection, tenantCreate, hzero, ht, hst, foldl_clearRecord, foldl_setQuota,
      setActiveTenantCount, Code.run_bind, run_field, run_edit, run_editAll, setTenant_setTenant,
      setTenant_get, Code.run_read, Code.run_write, Code.run_pure, ne_eq, not_true_eq_false,
      if_false]
    rfl
  · simp [createSection, tenantCreate, hzero, ht, hst]

theorem run_sweepSlot (tenantId : UInt32) (i : Slot) (s : TenantSharedMemory) :
    (sweepSlot tenantId i).run s = ((), sweepStep tenantId s i) := by
  by_cases howner : (s.pidMappings i).tenantId = tenantId
  · simp [sweepSlot, sweepStep, howner, setTotalProcessCount]
  · simp [sweepSlot, sweepStep, howner]

theorem run_sweepSlots (tenantId : UInt32) (s : TenantSharedMemory) :
    (sweepSlots tenantId).run s = ((), sweepMappings tenantId s) := by
  rw [sweepSlots, Code.run_each, sweepMappings]
  simp only [run_sweepSlot]

theorem run_retireSection (t : TenantIdx) (s : TenantSharedMemory) :
    (retireSection t).run s = ((), retireTenant t s) := by
  simp only [retireSection, setActiveTenantCount, Code.run_bind, run_edit, Code.run_read,
    Code.run_write, setTenant_setTenant, setTenant_get]
  rfl

theorem run_deleteSection (hzero : tenantId ≠ 0) (ht : tenantIdx? tenantId = some t) :
    (deleteSection t tenantId).run s = tenantDelete tenantId s := by
  rw [deleteSection, Code.run_bind, run_field]
  by_cases hst : (s.tenants t).status = .inactive
  · simp [tenantDelete, hzero, ht, hst]
  · rw [if_neg hst, Code.run_bind, run_sweepSlots, Code.run_bind, run_retireSection]
    simp [tenantDelete, hzero, ht, hst]

theorem run_setStatusSection (ht : tenantIdx? tenantId = some t) (status : TenantStatus) :
    (setStatusSection t status).run s = tenantSetStatus tenantId status s := by
  by_cases hst : (s.tenants t).status = .inactive
  · simp [setStatusSection, tenantSetStatus, ht, hst]
  · simp [setStatusSection, tenantSetStatus, ht, hst]

theorem run_updateQuotaSection (ht : tenantIdx? tenantId = some t) (quota : TenantQuota) :
    (updateQuotaSection t quota).run s = tenantUpdateQuota tenantId quota s := by
  by_cases hst : (s.tenants t).status = .inactive
  · simp [updateQuotaSection, tenantUpdateQuota, ht, hst]
  · simp [updateQuotaSection, tenantUpdateQuota, ht, hst]

theorem setTenant_self (t : TenantIdx) (s : TenantSharedMemory) :
    setTenant t (s.tenants t) s = s := by
  simp [setTenant]

theorem run_replaceProcess_add (t : TenantIdx) (pid : Int) (s : TenantSharedMemory) :
    (replaceProcess t 0 pid).run s = ((), setTenant t
      { s.tenants t with processes := addProcess pid (s.tenants t).processes } s) := by
  rw [replaceProcess, Code.run_bind, run_findProcess, addProcess]
  cases lookup (s.tenants t).processes 0 with
  | none => exact congrArg ((), ·) (setTenant_self t s).symm
  | some j => rfl

theorem run_replaceProcess_remove (t : TenantIdx) (pid : Int) (s : TenantSharedMemory) :
    (replaceProcess t pid 0).run s = ((), setTenant t
      { s.tenants t with processes := removeProcess pid (s.tenants t).processes } s) := by
  rw [replaceProcess, Code.run_bind, run_findProcess, removeProcess]
  cases lookup (s.tenants t).processes pid with
  | none => exact congrArg ((), ·) (setTenant_self t s).symm
  | some j => rfl

theorem run_enrollSection (t : TenantIdx) (i : Slot) (pid : Int) (tenantId : UInt32)
    (s : TenantSharedMemory) : (enrollSection t i pid tenantId).run s =
      ((), { setTenant t (enrollProcess pid (s.tenants t)) s with
        pidMappings := Function.update s.pidMappings i ⟨pid, tenantId⟩
        totalProcessCount := s.totalProcessCount + 1 }) := by
  simp only [enrollSection, setTotalProcessCount, Code.run_bind, run_field, run_edit,
    Code.run_read, Code.run_write, run_setMapping, run_replaceProcess_add]
  simp [setTenant, enrollProcess]

theorem run_bindSection (ht : tenantIdx? tenantId = some t) (pid : Int) :
    (bindSection t pid tenantId).run s = tenantBindProcess pid tenantId s := by
  have hscan : (scanMappings pid none (List.finRange maxProcesses)).run s =
      (scan (mappedPids s) 0 pid, s) := run_scanMappings pid s _ none
  by_cases hst : (s.tenants t).status = .active
  · simp only [bindSection, tenantBindProcess, ht, hst, Code.run_bind, run_field, ne_eq,
      not_true_eq_false, if_false, hscan]
    generalize scan (mappedPids s) 0 pid = found
    rcases found with ⟨_ | i, hole⟩
    · cases hole with
      | none => rfl
      | some i => simp [run_enrollSection]
    · simp
  · simp [bindSection, tenantBindProcess, ht, hst]

theorem run_dropSection (t : TenantIdx) (pid : Int) (s : TenantSharedMemory) :
    (dropSection t pid).run s = ((), setTenant t (dropProcess pid (s.tenants t)) s) := by
  rw [dropSection, Code.run_bind, run_replaceProcess_remove]
  by_cases hcount : (s.tenants t).processCount > 0
  · simp [hcount, dropProcess]
  · simp [hcount, dropProcess]

theorem run_releaseSection (pid : Int) (i : Slot) (s : TenantSharedMemory) :
    (releaseSection pid i).run s = ((), releaseFromTenant pid i s) := by
  rw [releaseSection, Code.run_bind, run_mapping, releaseFromTenant]
  cases tenantIdx? (s.pidMappings i).tenantId with
  | none => rfl
  | some t => exact run_dropSection t pid s

theorem releaseFromTenant_frame (pid : Int) (i : Slot) (s : TenantSharedMemory) :
    (releaseFromTenant pid i s).pidMappings = s.pidMappings ∧
      (releaseFromTenant pid i s).totalProcessCount = s.totalProcessCount := by
  unfold releaseFromTenant
  split
  · exact ⟨rfl, rfl⟩
  · exact ⟨rfl, rfl⟩

theorem run_unbindSection (pid : Int) (s : TenantSharedMemory) :
    (unbindSection pid).run s = tenantUnbindProcess pid s := by
  rw [unbindSection, Code.run_bind, run_findMapping, tenantUnbindProcess]
  cases lookup (mappedPids s) pid with
  | none => rfl
  | some i =>
      obtain ⟨hmappings, htotal⟩ := releaseFromTenant_frame pid i s
      by_cases hpositive : s.totalProcessCount > 0
      · simp [run_releaseSection, setTotalProcessCount, hmappings, htotal, hpositive]
      · simp [run_releaseSection, hmappings, htotal, hpositive]

theorem run_getProcessTenantSection (pid : Int) (s : TenantSharedMemory) :
    (getProcessTenantSection pid).run s = (tenantGetProcessTenant pid s, s) := by
  rw [getProcessTenantSection, Code.run_bind, run_findMapping, tenantGetProcessTenant]
  cases lookup (mappedPids s) pid with
  | none | some => rfl

theorem run_updateUsageSection (ht : tenantIdx? tenantId = some t) (usage : TenantResourceUsage) :
    (updateUsageSection t usage).run s = tenantUpdateResourceUsage tenantId usage s := by
  by_cases hst : (s.tenants t).status = .active
  · simp [updateUsageSection, tenantUpdateResourceUsage, ht, hst]
  · simp [updateUsageSection, tenantUpdateResourceUsage, ht, hst]

theorem run_getUsageSection (ht : tenantIdx? tenantId = some t) :
    (getUsageSection t).run s = (tenantGetResourceUsage tenantId s, s) := by
  by_cases hst : (s.tenants t).status = .active
  · simp [getUsageSection, tenantGetResourceUsage, copyUsage, ht, hst]
  · simp [getUsageSection, tenantGetResourceUsage, ht, hst]

theorem run_exceededSection (t : TenantIdx) (resourceType : Int) (amount : UInt32)
    (s : TenantSharedMemory) : (exceededSection t resourceType amount).run s =
      (limitExceeded (s.tenants t).usage (s.tenants t).quota resourceType amount, s) := by
  unfold exceededSection limitExceeded
  split_ifs <;> rfl

theorem run_checkLimitSection (ht : tenantIdx? tenantId = some t) (resourceType : Int)
    (amount : UInt32) : (checkLimitSection t resourceType amount).run s =
      (tenantCheckResourceLimit tenantId resourceType amount s, s) := by
  by_cases hst : (s.tenants t).status = .active
  · simp [checkLimitSection, tenantCheckResourceLimit, run_exceededSection, ht, hst]
  · simp [checkLimitSection, tenantCheckResourceLimit, ht, hst]

theorem run_clampSection (t : TenantIdx) (s : TenantSharedMemory) : (clampSection t).run s =
    ((), setTenant t { s.tenants t with usage := clampQp (s.tenants t).usage } s) := by
  by_cases hnegative : (s.tenants t).usage.qpCount < 0
  · simp [clampSection, clampQp, hnegative]
  · simp only [clampSection, clampQp, hnegative, Code.run_bind, run_field, if_false]
    exact congrArg ((), ·) (setTenant_self t s).symm

theorem run_tryAllocateQpSection (ht : tenantIdx? tenantId = some t) :
    (tryAllocateQpSection t).run s = tenantTryAllocateQp tenantId s := by
  by_cases hst : (s.tenants t).status = .active
  · by_cases hfull : (s.tenants t).quota.maxQpPerTenant ≤
        (clampQp (s.tenants t).usage).qpCount.toUInt32
    · simp [tryAllocateQpSection, tenantTryAllocateQp, run_clampSection, ht, hst, hfull]
    · simp [tryAllocateQpSection, tenantTryAllocateQp, run_clampSection, reserveQp, ht, hst, hfull]
  · simp [tryAllocateQpSection, tenantTryAllocateQp, ht, hst]

theorem run_visitActive (t : TenantIdx) (s : TenantSharedMemory) : (visitActive t).run s =
    (if (s.tenants t).status = .active then some (s.tenants t) else none, s) := by
  by_cases hst : (s.tenants t).status = .active
  · simp [visitActive, hst]
  · simp [visitActive, hst]

theorem run_activeListSection (maxCount : Nat) (s : TenantSharedMemory) :
    (activeListSection maxCount).run s =
      (TenantListings.activeFrom maxCount s 0 (List.finRange maxTenants), s) := by
  rw [activeListSection, Code.run_collect fun t => run_visitActive t s,
    TenantListings.activeFrom_eq]
  congr 2
  generalize List.finRange maxTenants = ts
  induction ts with
  | nil => rfl
  | cons t ts ih =>
      by_cases hst : (s.tenants t).status = .active
      · simp [hst, ih]
      · simp [hst, ih]

theorem run_statisticsSection (ht : tenantIdx? tenantId = some t) :
    (statisticsSection t).run s = (tenantGetStatistics tenantId s, s) := by
  by_cases hst : (s.tenants t).status = .active
  · simp [statisticsSection, tenantGetStatistics, ht, hst]
  · simp [statisticsSection, tenantGetStatistics, ht, hst]

end Run

/-! ## The calls -/

/-- The functions that take the lock. -/
inductive SectionCall where
  | store (call : StoreCall)
  | getProcessTenant (pid : Int)
  /-- The copy that `tenant_get_info` makes. -/
  | copyInfo (tenantId : UInt32)
  | getActiveList (maxCount : Int)
  | getStatistics (tenantId : UInt32)

inductive SectionAnswer where
  | store (answer : StoreAnswer)
  | tenant (tenantId : Option UInt32)
  | info (record : Option TenantInfo)
  | list (records : Option (List TenantInfo))
  | totals (totals : Option (UInt64 × UInt64))

/-- Each call as one step. -/
def execCall : SectionCall → TenantSharedMemory → SectionAnswer × TenantSharedMemory
  | .store call, s => (.store (storeCall s call).1, (storeCall s call).2)
  | .getProcessTenant pid, s => (.tenant (tenantGetProcessTenant pid s), s)
  | .copyInfo tenantId, s => (.info ((tenantIdx? tenantId).map s.tenants), s)
  | .getActiveList maxCount, s => (.list (tenantGetActiveList maxCount s), s)
  | .getStatistics tenantId, s => (.totals (tenantGetStatistics tenantId s), s)

/-- A section whose result is handed back as an answer. -/
def answering {β : Type} (answer : β → SectionAnswer) (code : Access β) : Access SectionAnswer := do
  return answer (← code)

theorem run_answering {β : Type} (answer : β → SectionAnswer) (code : Access β)
    (s : TenantSharedMemory) :
    (answering answer code).run s = (answer (code.run s).1, (code.run s).2) := by
  rw [answering, Code.run_bind, Code.run_pure]

/-- Return codes and truth values. -/
def returning (code : Access Int) : Access SectionAnswer :=
  answering (fun rc => .store (.code rc)) code

def deciding (code : Access Bool) : Access SectionAnswer :=
  answering (fun b => .store (.flag b)) code

/-- A function of a tenant refuses numbers that are out of range before it takes
the lock. -/
def inRange (tenantId : UInt32) (refusal : SectionAnswer)
    (code : TenantIdx → Access SectionAnswer) : Body TenantSharedMemory SectionAnswer :=
  match tenantIdx? tenantId with
  | none => .refused refusal
  | some t => .locked (code t)

/-- Each call as the accesses it makes. -/
def storeBody : SectionCall → Body TenantSharedMemory SectionAnswer
  | .store (.create tenantId name quota) =>
      if tenantId = 0 then .refused (.store (.code (-1)))
      else inRange tenantId (.store (.code (-1))) fun t =>
        returning (createSection t tenantId name quota)
  | .store (.delete tenantId) =>
      if tenantId = 0 then .refused (.store (.code (-1)))
      else inRange tenantId (.store (.code (-1))) fun t => returning (deleteSection t tenantId)
  | .store (.setStatus tenantId status) =>
      inRange tenantId (.store (.code (-1))) fun t => returning (setStatusSection t status)
  | .store (.updateQuota _ none) => .refused (.store (.code (-1)))
  | .store (.updateQuota tenantId (some quota)) =>
      inRange tenantId (.store (.code (-1))) fun t => returning (updateQuotaSection t quota)
  | .store (.updateResourceUsage _ none) => .refused (.store (.code (-1)))
  | .store (.updateResourceUsage tenantId (some usage)) =>
      inRange tenantId (.store (.code (-1))) fun t => returning (updateUsageSection t usage)
  | .store (.getResourceUsage tenantId) =>
      inRange tenantId (.store (.usage none)) fun t =>
        answering (fun usage => .store (.usage usage)) (getUsageSection t)
  | .store (.checkResourceLimit tenantId resourceType amount) =>
      inRange tenantId (.store (.flag false)) fun t =>
        deciding (checkLimitSection t resourceType amount)
  | .store (.tryAllocateQp tenantId) =>
      inRange tenantId (.store (.flag false)) fun t => deciding (tryAllocateQpSection t)
  | .store (.bindProcess pid tenantId) =>
      inRange tenantId (.store (.code (-1))) fun t => returning (bindSection t pid tenantId)
  | .store (.unbindProcess pid) => .locked (returning (unbindSection pid))
  | .getProcessTenant pid => .locked (answering .tenant (getProcessTenantSection pid))
  | .copyInfo tenantId =>
      inRange tenantId (.info none) fun t => answering (fun r => .info (some r)) (copyRecord t)
  | .getActiveList maxCount =>
      if maxCount ≤ 0 then .refused (.list none)
      else .locked (answering (fun rs => .list (some rs)) (activeListSection maxCount.toNat))
  | .getStatistics tenantId =>
      inRange tenantId (.totals none) fun t => answering .totals (statisticsSection t)

/-- A body does what a call does as one step. -/
def Does (body : Body TenantSharedMemory SectionAnswer)
    (exec : TenantSharedMemory → SectionAnswer × TenantSharedMemory) : Prop :=
  match body with
  | .refused b => ∀ s, exec s = (b, s)
  | .locked code => ∀ s, code.run s = exec s

theorem does_inRange {refusal : SectionAnswer} {code : TenantIdx → Access SectionAnswer}
    {exec : TenantSharedMemory → SectionAnswer × TenantSharedMemory}
    (hout : tenantIdx? tenantId = none → ∀ s, exec s = (refusal, s))
    (hin : ∀ {t}, tenantIdx? tenantId = some t → ∀ s, (code t).run s = exec s) :
    Does (inRange tenantId refusal code) exec := by
  unfold inRange
  cases ht : tenantIdx? tenantId with
  | none => exact hout ht
  | some t => exact hin ht

theorem does_storeCall (call : StoreCall) :
    Does (storeBody (.store call)) (execCall (.store call)) := by
  cases call with
  | create tenantId name quota =>
      by_cases hzero : tenantId = 0
      · rw [storeBody, if_pos hzero]
        intro s
        simp [execCall, storeCall, tenantCreate, hzero]
      · rw [storeBody, if_neg hzero]
        refine does_inRange (fun ht s => ?_) fun ht s => ?_
        · simp [execCall, storeCall, tenantCreate, ht]
        · rw [returning, run_answering, run_createSection hzero ht]
          rfl
  | delete tenantId =>
      by_cases hzero : tenantId = 0
      · rw [storeBody, if_pos hzero]
        intro s
        simp [execCall, storeCall, tenantDelete, hzero]
      · rw [storeBody, if_neg hzero]
        refine does_inRange (fun ht s => ?_) fun ht s => ?_
        · simp [execCall, storeCall, tenantDelete, ht]
        · rw [returning, run_answering, run_deleteSection hzero ht]
          rfl
  | setStatus tenantId status =>
      refine does_inRange (fun ht s => ?_) fun ht s => ?_
      · simp [execCall, storeCall, tenantSetStatus, ht]
      · rw [returning, run_answering, run_setStatusSection ht]
        rfl
  | updateQuota tenantId quota =>
      cases quota with
      | none => exact fun s => rfl
      | some quota =>
          refine does_inRange (fun ht s => ?_) fun ht s => ?_
          · simp [execCall, storeCall, tenantUpdateQuota, ht]
          · rw [returning, run_answering, run_updateQuotaSection ht]
            rfl
  | updateResourceUsage tenantId usage =>
      cases usage with
      | none => exact fun s => rfl
      | some usage =>
          refine does_inRange (fun ht s => ?_) fun ht s => ?_
          · simp [execCall, storeCall, tenantUpdateResourceUsage, ht]
          · rw [returning, run_answering, run_updateUsageSection ht]
            rfl
  | getResourceUsage tenantId =>
      refine does_inRange (fun ht s => ?_) fun ht s => ?_
      · simp [execCall, storeCall, tenantGetResourceUsage, ht]
      · rw [run_answering, run_getUsageSection ht]
        rfl
  | checkResourceLimit tenantId resourceType amount =>
      refine does_inRange (fun ht s => ?_) fun ht s => ?_
      · simp [execCall, storeCall, tenantCheckResourceLimit, ht]
      · rw [deciding, run_answering, run_checkLimitSection ht]
        rfl
  | tryAllocateQp tenantId =>
      refine does_inRange (fun ht s => ?_) fun ht s => ?_
      · simp [execCall, storeCall, tenantTryAllocateQp, ht]
      · rw [deciding, run_answering, run_tryAllocateQpSection ht]
        rfl
  | bindProcess pid tenantId =>
      refine does_inRange (fun ht s => ?_) fun ht s => ?_
      · simp [execCall, storeCall, tenantBindProcess, ht]
      · rw [returning, run_answering, run_bindSection ht]
        rfl
  | unbindProcess pid =>
      intro s
      rw [returning, run_answering, run_unbindSection]
      rfl

theorem does_call (call : SectionCall) : Does (storeBody call) (execCall call) := by
  cases call with
  | store call => exact does_storeCall call
  | getProcessTenant pid =>
      intro s
      rw [run_answering, run_getProcessTenantSection]
      rfl
  | copyInfo tenantId =>
      refine does_inRange (fun ht s => ?_) fun ht s => ?_
      · simp [execCall, ht]
      · simp [run_answering, execCall, ht]
  | getActiveList maxCount =>
      by_cases hmax : maxCount ≤ 0
      · rw [storeBody, if_pos hmax]
        intro s
        simp [execCall, tenantGetActiveList, hmax]
      · rw [storeBody, if_neg hmax]
        intro s
        rw [run_answering, run_activeListSection]
        simp [execCall, tenantGetActiveList, hmax]
  | getStatistics tenantId =>
      refine does_inRange (fun ht s => ?_) fun ht s => ?_
      · simp [execCall, tenantGetStatistics, ht]
      · rw [run_answering, run_statisticsSection ht]
        rfl

theorem storeBody_implements : Implements storeBody execCall where
  refused := by
    intro call b hbody
    have hdoes := does_call call
    rw [hbody] at hdoes
    exact hdoes
  locked := by
    intro call code hbody
    have hdoes := does_call call
    rw [hbody] at hdoes
    exact hdoes

/-! ## How long the lock is held -/

section Bounds

variable (t : TenantIdx)

theorem atMost_field {α : Type} (f : TenantInfo → α) : (field t f).AtMost 1 := .read _

theorem atMost_edit (f : TenantInfo → TenantInfo) : (edit t f).AtMost 1 := .write _

theorem atMost_editAll {fs : List (TenantInfo → TenantInfo)} {n : Nat} (hn : fs.length = n) :
    (editAll t fs).AtMost n := by
  have heach := Code.AtMost.each (atMost_edit t) fs
  rwa [hn, Nat.mul_one] at heach

theorem atMost_setMapping (i : Slot) (pid : Int) (tenantId : UInt32) :
    (setMapping i pid tenantId).AtMost 2 :=
  (Code.AtMost.write _).bind fun _ => .write _

/-- A loop over the slots with one access in each turn. -/
theorem atMost_search {test : Slot → Access Bool} (htest : ∀ i, (test i).AtMost 1) :
    (Code.first test (List.finRange maxProcesses)).AtMost 1024 := by
  have hfirst := Code.AtMost.first htest (List.finRange maxProcesses)
  rw [List.length_finRange] at hfirst
  exact hfirst.mono (by simp [maxProcesses])

theorem atMost_findProcess (pid : Int) : (findProcess t pid).AtMost 1024 :=
  atMost_search fun _ => atMost_field t _

theorem atMost_findMapping (pid : Int) : (findMapping pid).AtMost 1024 :=
  atMost_search fun _ => .read _

theorem atMost_scanMappings (pid : Int) (slots : List Slot) :
    ∀ hole, (scanMappings pid hole slots).AtMost (slots.length * 2) := by
  induction slots with
  | nil => exact fun hole => .pure _ _
  | cons i rest ih =>
      intro hole
      rw [List.length_cons, Nat.succ_mul]
      refine .read_bind fun found => .ite (.pure _ _) (.ite ?_ ?_)
      · exact .read_bind fun empty => .ite (ih _) (ih _)
      · exact (ih hole).mono (Nat.le_succ _)

theorem atMost_copyProcesses : (copyProcesses t).AtMost 1024 := by
  have hbody : ∀ (copy : Slot → Int) (j : Slot), (do
      let pid ← field t (·.processes j)
      return Function.update copy j pid : Access (Slot → Int)).AtMost 1 :=
    fun copy j => .read_bind fun pid => .pure 0 _
  have hfold := Code.AtMost.foldlM hbody (List.finRange maxProcesses) fun _ => 0
  rw [List.length_finRange] at hfold
  exact hfold.mono (by simp [maxProcesses])

theorem atMost_copyUsage : (copyUsage t).AtMost 9 :=
  .read_bind fun _ => .read_bind fun _ => .read_bind fun _ => .read_bind fun _ =>
    .read_bind fun _ => .read_bind fun _ => .read_bind fun _ => .read_bind fun _ =>
      .read_bind fun _ => .pure 0 _

theorem atMost_copyQuota : (copyQuota t).AtMost 5 :=
  .read_bind fun _ => .read_bind fun _ => .read_bind fun _ => .read_bind fun _ =>
    .read_bind fun _ => .pure 0 _

theorem atMost_copyRecord : (copyRecord t).AtMost 1042 :=
  .read_bind fun _ => .read_bind fun _ => .read_bind fun _ => (atMost_copyQuota t).bind_add fun _ =>
    (atMost_copyUsage t).bind_add fun _ => .read_bind fun _ =>
      (atMost_copyProcesses t).bind_add fun _ => .pure 0 _

theorem length_clearRecord : clearRecord.length = 1042 := by
  simp [clearRecord, clearProcesses, setQuota, setUsage, maxProcesses]

theorem atMost_createSection (tenantId : UInt32) (name : Option (List UInt8))
    (quota : Option TenantQuota) : (createSection t tenantId name quota).AtMost 1053 := by
  have hclear := atMost_editAll t length_clearRecord
  have hquota : (editAll t (setQuota (quota.getD defaultQuota))).AtMost 5 := atMost_editAll t rfl
  refine .read_bind fun status => .ite (.pure _ _) (hclear.bind_add fun _ => ?_)
  refine (atMost_edit t _).bind_add fun _ => (atMost_edit t _).bind_add fun _ =>
    (atMost_edit t _).bind_add fun _ => hquota.bind_add fun _ => ?_
  exact .read_bind fun count => (Code.AtMost.write _).bind_add fun _ => .pure 0 _

theorem atMost_sweepSlots (tenantId : UInt32) : (sweepSlots tenantId).AtMost 5120 := by
  have hslot : ∀ i, (sweepSlot tenantId i).AtMost 5 := by
    intro i
    refine .read_bind fun owner => .ite ?_ (.pure _ _)
    exact (atMost_setMapping i 0 0).bind_add fun _ => .read_bind fun total => .write _
  have heach := Code.AtMost.each hslot (List.finRange maxProcesses)
  rw [List.length_finRange] at heach
  exact heach.mono (by simp [maxProcesses])

theorem atMost_deleteSection (tenantId : UInt32) : (deleteSection t tenantId).AtMost 5125 := by
  have hretire : (retireSection t).AtMost 4 :=
    (atMost_edit t _).bind_add fun _ => (atMost_edit t _).bind_add fun _ =>
      .read_bind fun count => .write _
  exact .read_bind fun status => .ite (.pure _ _) ((atMost_sweepSlots tenantId).bind_add fun _ =>
    hretire.bind_add fun _ => .pure 0 _)

theorem atMost_setStatusSection (status : TenantStatus) : (setStatusSection t status).AtMost 2 :=
  .read_bind fun _ => .ite (.pure _ _) ((atMost_edit t _).bind_add fun _ => .pure 0 _)

theorem atMost_updateQuotaSection (quota : TenantQuota) :
    (updateQuotaSection t quota).AtMost 6 := by
  have hquota : (editAll t (setQuota quota)).AtMost 5 := atMost_editAll t rfl
  exact .read_bind fun _ => .ite (.pure _ _) (hquota.bind_add fun _ => .pure 0 _)

theorem atMost_updateUsageSection (usage : TenantResourceUsage) :
    (updateUsageSection t usage).AtMost 10 := by
  have husage : (editAll t (setUsage usage)).AtMost 9 := atMost_editAll t rfl
  exact .read_bind fun _ => .ite (.pure _ _) (husage.bind_add fun _ => .pure 0 _)

theorem atMost_replaceProcess (old new : Int) : (replaceProcess t old new).AtMost 1025 := by
  refine (atMost_findProcess t old).bind_add fun cell => ?_
  cases cell with
  | none => exact .pure _ _
  | some j => exact atMost_edit t _

theorem atMost_bindSection (pid : Int) (tenantId : UInt32) :
    (bindSection t pid tenantId).AtMost 3080 := by
  have hscan : (scanMappings pid none (List.finRange maxProcesses)).AtMost 2048 := by
    have hslots := atMost_scanMappings pid (List.finRange maxProcesses) none
    rw [List.length_finRange] at hslots
    exact hslots.mono (by simp [maxProcesses])
  refine .read_bind fun status => .ite (.pure _ _) (hscan.bind_add fun found => ?_)
  rcases found with ⟨_ | i, hole⟩
  · cases hole with
    | none => exact .pure _ _
    | some i =>
        have henroll : (enrollSection t i pid tenantId).AtMost 1031 :=
          .read_bind fun count => (atMost_edit t _).bind_add fun _ => .read_bind fun total =>
            (Code.AtMost.write _).bind_add fun _ => (atMost_setMapping i _ _).bind_add fun _ =>
              atMost_replaceProcess t _ _
        exact henroll.bind_add fun _ => .pure 0 _
  · exact (atMost_setMapping i pid tenantId).bind_add fun _ => .pure _ _

theorem atMost_unbindSection (pid : Int) : (unbindSection pid).AtMost 2056 := by
  refine (atMost_findMapping pid).bind_add fun slot => ?_
  cases slot with
  | none => exact .pure _ _
  | some i =>
      have hrelease : (releaseSection pid i).AtMost 1028 := by
        refine .read_bind fun owner => ?_
        cases tenantIdx? owner with
        | none => exact .pure _ _
        | some t =>
            exact (atMost_replaceProcess t pid 0).bind_add fun _ => .read_bind fun count =>
              .ite (atMost_edit t _) (.pure _ _)
      refine hrelease.bind_add fun _ => (atMost_setMapping i 0 0).bind_add fun _ =>
        .read_bind fun total => ?_
      split
      · exact (Code.AtMost.write _).bind_add fun _ => .pure 0 _
      · exact .pure _ _

theorem atMost_getUsageSection : (getUsageSection t).AtMost 10 :=
  .read_bind fun _ => .ite (.pure _ _) ((atMost_copyUsage t).bind_add fun _ => .pure 0 _)

theorem atMost_checkLimitSection (resourceType : Int) (amount : UInt32) :
    (checkLimitSection t resourceType amount).AtMost 3 := by
  refine .read_bind fun status => .ite (.pure _ _) ?_
  unfold exceededSection
  split_ifs
  all_goals first
    | exact .read_bind fun _ => .read_bind fun _ => .pure 0 _
    | exact .pure _ _

theorem atMost_tryAllocateQpSection : (tryAllocateQpSection t).AtMost 8 := by
  have hclamp : (clampSection t).AtMost 2 :=
    .read_bind fun count => .ite (atMost_edit t _) (.pure _ _)
  refine .read_bind fun status => .ite (.pure _ _) (hclamp.bind_add fun _ => ?_)
  refine .read_bind fun count => .read_bind fun max => .ite (.pure _ _) ?_
  exact (atMost_edit t _).bind_add fun _ => .read_bind fun creates =>
    (atMost_edit t _).bind_add fun _ => .pure 0 _

theorem atMost_activeListSection (maxCount : Nat) :
    (activeListSection maxCount).AtMost 133504 := by
  have hvisit : ∀ t, (visitActive t).AtMost 1043 := by
    intro t
    exact .read_bind fun status => .ite ((atMost_copyRecord t).bind_pure some) (.pure _ _)
  refine (Code.AtMost.collect hvisit _ (List.finRange maxTenants) 0).mono ?_
  rw [List.length_finRange]
  decide

end Bounds

/-- The listing of the ACTIVE tenants is the longest section: for each tenant a
look at its status and a copy of its record. -/
def maxAccesses : Nat := 133504

theorem atMost_answering {β : Type} {answer : β → SectionAnswer} {code : Access β} {n : Nat}
    (h : code.AtMost n) (hn : n ≤ maxAccesses) : (answering answer code).AtMost maxAccesses :=
  (h.bind_pure answer).mono hn

theorem atMost_inRange {refusal : SectionAnswer} {body : TenantIdx → Access SectionAnswer}
    (hbody : ∀ t, (body t).AtMost maxAccesses) {code : Access SectionAnswer}
    (h : inRange tenantId refusal body = .locked code) :
    code.AtMost maxAccesses := by
  unfold inRange at h
  split at h
  · cases h
  · cases h
    exact hbody _

theorem atMost_storeBody {call : SectionCall} {code : Access SectionAnswer}
    (h : storeBody call = .locked code) : code.AtMost maxAccesses := by
  cases call with
  | store call =>
      cases call with
      | create tenantId name quota =>
          rw [storeBody] at h
          split at h
          · cases h
          · exact atMost_inRange (fun t =>
              atMost_answering (atMost_createSection t tenantId name quota) (by decide)) h
      | delete tenantId =>
          rw [storeBody] at h
          split at h
          · cases h
          · exact atMost_inRange (fun t =>
              atMost_answering (atMost_deleteSection t tenantId) (by decide)) h
      | setStatus tenantId status =>
          exact atMost_inRange (fun t =>
            atMost_answering (atMost_setStatusSection t status) (by decide)) h
      | updateQuota tenantId quota =>
          cases quota with
          | none => cases h
          | some quota =>
              exact atMost_inRange (fun t =>
                atMost_answering (atMost_updateQuotaSection t quota) (by decide)) h
      | updateResourceUsage tenantId usage =>
          cases usage with
          | none => cases h
          | some usage =>
              exact atMost_inRange (fun t =>
                atMost_answering (atMost_updateUsageSection t usage) (by decide)) h
      | getResourceUsage tenantId =>
          exact atMost_inRange (fun t =>
            atMost_answering (atMost_getUsageSection t) (by decide)) h
      | checkResourceLimit tenantId resourceType amount =>
          exact atMost_inRange (fun t =>
            atMost_answering (atMost_checkLimitSection t resourceType amount) (by decide)) h
      | tryAllocateQp tenantId =>
          exact atMost_inRange (fun t =>
            atMost_answering (atMost_tryAllocateQpSection t) (by decide)) h
      | bindProcess pid tenantId =>
          exact atMost_inRange (fun t =>
            atMost_answering (atMost_bindSection t pid tenantId) (by decide)) h
      | unbindProcess pid =>
          cases h
          exact atMost_answering (atMost_unbindSection pid) (by decide)
  | getProcessTenant pid =>
      cases h
      have hsection : (getProcessTenantSection pid).AtMost 1025 := by
        refine (atMost_findMapping pid).bind_add fun slot => ?_
        cases slot with
        | none => exact .pure _ _
        | some i => exact .read_bind fun owner => .pure 0 _
      exact atMost_answering hsection (by decide)
  | copyInfo tenantId =>
      exact atMost_inRange (fun t => atMost_answering (atMost_copyRecord t) (by decide)) h
  | getActiveList maxCount =>
      rw [storeBody] at h
      split at h
      · cases h
      · cases h
        exact atMost_answering (atMost_activeListSection maxCount.toNat) (Nat.le_refl _)
  | getStatistics tenantId =>
      refine atMost_inRange (fun t => ?_) h
      have hsection : (statisticsSection t).AtMost 3 :=
        .read_bind fun status => .ite (.pure _ _) (.read_bind fun _ => .read_bind fun _ =>
          .pure 0 _)
      exact atMost_answering hsection (by decide)

/-! ## Results -/

section Results

variable {ι : Type} [DecidableEq ι]

/-- **Calls are atomic.**  Any number of processes run calls of the store against
each other, one access at a time and in any order.  The calls in the order of
their answers are a run of the functions as single steps, with these answers,
and the memory is the one that this run ends with whenever the lock is free. -/
theorem store_calls_atomic {labels : List (ι × Event SectionCall SectionAnswer)}
    {c : State ι TenantSharedMemory SectionCall SectionAnswer}
    (hrun : Run (SectionStep storeBody) (start zeroed) labels c) :
    ∃ s, Run (Atomic execCall) zeroed (completed labels) s ∧
      (c.shared.held = false → c.shared.memory = s) :=
  calls_atomic storeBody_implements hrun

/-- Calls that make no tenant INACTIVE other than by deletion. -/
abbrev DeletingCall :=
  { call : SectionCall // ∀ tenantId, call ≠ .store (.setStatus tenantId .inactive) }

def deletingBody (call : DeletingCall) : Body TenantSharedMemory SectionAnswer := storeBody call.1

/-- One call, as one step, keeps the store well formed. -/
theorem wf_execCall (call : DeletingCall) {s : TenantSharedMemory}
    (h : Lifecycle s ∧ TenantListings.Numbered s) :
    Lifecycle (execCall call.1 s).2 ∧ TenantListings.Numbered (execCall call.1 s).2 := by
  obtain ⟨call, hcall⟩ := call
  cases call with
  | store call =>
      refine ⟨TenantListings.lifecycle_call h.1 ⟨fun tenantId hset => ?_, rfl⟩, h.2.call call⟩
      exact hcall tenantId (congrArg SectionCall.store hset)
  | getProcessTenant | copyInfo | getActiveList | getStatistics => exact h

/-- **A free lock shows a well-formed store.**  However the accesses of the calls
are interleaved: when nobody holds the lock, the count of tenants is exact,
every mapped pid belongs to a tenant that exists, and the record of a tenant
that exists carries its number. -/
theorem store_wf_when_free {labels : List (ι × Event DeletingCall SectionAnswer)}
    {c : State ι TenantSharedMemory DeletingCall SectionAnswer}
    (hrun : Run (SectionStep deletingBody) (start zeroed) labels c)
    (hfree : c.shared.held = false) :
    c.shared.memory.activeTenantCount.toNat =
        (Finset.univ.filter fun t => (c.shared.memory.tenants t).status ≠ .inactive).card ∧
      (∀ i, (c.shared.memory.pidMappings i).pid ≠ 0 →
        ∃ t, tenantIdx? (c.shared.memory.pidMappings i).tenantId = some t ∧
          (c.shared.memory.tenants t).status ≠ .inactive) ∧
      ∀ t, (c.shared.memory.tenants t).status ≠ .inactive →
        tenantIdx? (c.shared.memory.tenants t).tenantId = some t := by
  have himpl : Implements deletingBody fun call => execCall call.1 :=
    ⟨fun hbody => storeBody_implements.refused hbody, fun hbody =>
      storeBody_implements.locked hbody⟩
  obtain ⟨hlife, hnumbered⟩ := invariant_when_free
    (P := fun s => Lifecycle s ∧ TenantListings.Numbered s) himpl
    ⟨Lifecycle.zeroed, TenantListings.Numbered.zeroed⟩
    (fun call s h => wf_execCall call h) hrun hfree
  exact ⟨hlife.count, hlife.homed, hnumbered⟩

/-- **The lock is not kept.**  A process that has taken the lock gives it back
after at most 133504 accesses, whatever it finds and whatever the others do:
as long as its call has no answer, it has made no more steps than that. -/
theorem store_lock_not_kept {labels more : List (ι × Event SectionCall SectionAnswer)}
    {c c' : State ι TenantSharedMemory SectionCall SectionAnswer} {i : ι} {call : SectionCall}
    {code : Access SectionAnswer} (hrun : Run (SectionStep storeBody) (start zeroed) labels c)
    (hinside : c.control i = .inside call code) (hmore : Run (SectionStep storeBody) c more c')
    (hpending : ∀ answer, (i, .finished call answer) ∉ more) :
    (more.countP fun label => decide (label.1 = i)) ≤ maxAccesses := by
  have hbounded : Bounded maxAccesses c :=
    hrun.invariant (bounded_start _ _) fun _ _ _ h hstep => h.step atMost_storeBody hstep
  by_contra hmany
  obtain ⟨answer, hanswer⟩ :=
    section_ends hinside (hbounded i call code hinside) hmore (Nat.lt_of_not_le hmany)
  exact hpending answer hanswer

end Results

/-- The section by which tenant 1 is created. -/
theorem storeBody_createFirst : storeBody (.store (.create 1 none none)) =
    .locked (returning (createSection 1 1 none none)) := rfl

/-- Process 0 creates tenant 1, and is alone. -/
theorem store_calls_atomic_create :
    ∃ (labels : List (Fin 2 × Event SectionCall SectionAnswer)) (s : TenantSharedMemory),
      completed labels = [(0, .store (.create 1 none none), .store (.code 0))] ∧
        Run (Atomic execCall) zeroed (completed labels) s := by
  obtain ⟨labels, c, hrun, hcompleted, -⟩ := call_completes (i := (0 : Fin 2))
    storeBody_createFirst (c := start zeroed) rfl rfl
  obtain ⟨s, hatomic, -⟩ := store_calls_atomic hrun
  refine ⟨labels, s, hcompleted.trans ?_, hatomic⟩
  rw [returning, run_answering, run_createSection (by decide) rfl]
  rfl

theorem store_wf_when_free_create :
    ∃ c : State (Fin 2) TenantSharedMemory DeletingCall SectionAnswer,
      c.shared.memory = (tenantCreate 1 none none zeroed).2 ∧
        c.shared.memory.activeTenantCount.toNat =
          (Finset.univ.filter fun t => (c.shared.memory.tenants t).status ≠ .inactive).card := by
  have hbody : deletingBody ⟨.store (.create 1 none none), nofun⟩ =
      .locked (returning (createSection 1 1 none none)) := storeBody_createFirst
  obtain ⟨labels, c, hrun, -, hend⟩ := call_completes (i := (0 : Fin 2)) hbody
    (c := start zeroed) rfl rfl
  have hshared : c.shared = ⟨false, _⟩ := congrArg (·.shared) hend
  rw [returning, run_answering, run_createSection (by decide) rfl] at hshared
  refine ⟨c, congrArg LockedMemory.memory hshared, ?_⟩
  exact (store_wf_when_free hrun (congrArg LockedMemory.held hshared)).1

/-- Process `i` has taken the lock to create tenant 1. -/
def creating (i : Fin 2) : State (Fin 2) TenantSharedMemory SectionCall SectionAnswer :=
  goTo (start zeroed) i ⟨true, zeroed⟩
    (.inside (.store (.create 1 none none)) (returning (createSection 1 1 none none)))

theorem creating_run (i : Fin 2) :
    Run (SectionStep storeBody) (start zeroed) [(i, .quiet), (i, .quiet)] (creating i) := by
  have hcall : SectionStep storeBody (start zeroed) (i, .quiet)
      (goTo (start zeroed) i ⟨false, zeroed⟩ (.called (.store (.create 1 none none)))) :=
    .call _ rfl
  have hlock := (Run.snoc .start hcall).snoc
    (.lock (goTo_self _ i _ _) storeBody_createFirst rfl)
  rwa [goTo_goTo] at hlock

/-- Process 0 makes two accesses; in between process 1 calls `tenant_delete` and
finds the lock taken. -/
theorem store_lock_not_kept_create :
    ∃ (more : List (Fin 2 × Event SectionCall SectionAnswer))
      (c : State (Fin 2) TenantSharedMemory SectionCall SectionAnswer),
      Run (SectionStep storeBody) (creating 0) more c ∧
        c.control 1 = .called (.store (.delete 1)) ∧
        more.map (fun label => label.1) = [1, 0, 1, 0] ∧
        (more.countP fun label => decide (label.1 = 0)) ≤ maxAccesses := by
  have hcall : SectionStep storeBody (creating 0) (1, .quiet)
      (goTo (creating 0) 1 (creating 0).shared (.called (.store (.delete 1)))) := .call _ rfl
  have hread := (Run.snoc .start hcall).snoc (.access (i := 0) rfl)
  have hspin := hread.snoc (.spin (i := 1) (a := .store (.delete 1)) rfl rfl rfl)
  have hmore := hspin.snoc (.access (i := 0) rfl)
  refine ⟨_, _, hmore, rfl, rfl, ?_⟩
  refine store_lock_not_kept (creating_run 0) (goTo_self _ 0 _ _) hmore fun answer hmem => ?_
  simp at hmem

end MtRdma.Ports.StoreSections
