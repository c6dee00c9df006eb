import MtRdma.Verified.CText
import MtRdma.Ports.SharedMemory
import MtRdma.Ports.SharedMemoryTenant

/-!
# State and helpers of the hooks (`rdma_hooks_tenant.c`)

The hooks run inside the intercepted process.  Their static variables and the
part of `g_intercept_state` they read form the `Process` record; a call sees
this record next to the two shared segments as one `View`.  What the call
learns from the system (environment variables, `/proc` files, clocks, the
outcome of mapping a segment or resolving a symbol) is its `HookEnv`.

`tenant_initialized` is only ever set after the tenant segment was mapped, so
calls behind that flag find the segment.
-/

namespace MtRdma.Ports.RdmaHooks

open Verified.CText
open SharedMemory
open SharedMemoryTenant (TenantSharedMemory TenantResourceUsage tenantBindProcess
  tenantGetProcessTenant tenantGetResourceUsage tenantUpdateResourceUsage tenantGetInfo
  tenantTryAllocateQp)

/-! ## Process state -/

/-- The fields of `intercept_config_t` that the hooks read. -/
structure InterceptConfig where
  enableIntercept : Bool
  enableQpControl : Bool
  maxQpPerProcess : UInt32
  maxSendWrLimit : UInt32
  maxRecvWrLimit : UInt32
  allowRcQp : Bool
  allowUcQp : Bool
  allowUdQp : Bool
  maxGlobalQp : UInt32
  enableMrRateLimit : Bool
  maxMrOpsPerSec : UInt32
  mrRateLimitWindowMs : UInt32
  deriving Repr, DecidableEq

/-- The static initializer of `g_intercept_state.config`. -/
def InterceptConfig.default : InterceptConfig where
  enableIntercept := true
  enableQpControl := false
  maxQpPerProcess := 100
  maxSendWrLimit := 1024
  maxRecvWrLimit := 1024
  allowRcQp := true
  allowUcQp := true
  allowUdQp := true
  maxGlobalQp := 1000
  enableMrRateLimit := false
  maxMrOpsPerSec := 0
  mrRateLimitWindowMs := 0

/-- `g_intercept_state`: the flag, the configuration and the process's own
counters. -/
structure InterceptState where
  initialized : Bool
  config : InterceptConfig
  qpCount : UInt32
  mrCount : UInt32
  memoryUsed : UInt64
  deriving Repr, DecidableEq

/-- Which symbols `dlsym` has found. -/
structure RealVerbs where
  createQp : Bool
  destroyQp : Bool
  createCq : Bool
  destroyCq : Bool
  allocPd : Bool
  deallocPd : Bool
  regMr : Bool
  deregMr : Bool
  openDevice : Bool
  deriving Repr, DecidableEq

def RealVerbs.none : RealVerbs :=
  ⟨false, false, false, false, false, false, false, false, false⟩

/-- `struct timespec`. -/
structure Timespec where
  sec : UInt64
  nsec : UInt64
  deriving Repr, DecidableEq

/-- Milliseconds of a clock reading. -/
def Timespec.ms (t : Timespec) : UInt64 := t.sec * 1000 + t.nsec / 1000000

/-- An entry of `g_verb_ctx_table`: a context and the callback it had. -/
structure VerbCtx where
  context : Nat
  originalCreateQpEx : Nat
  deriving Repr, DecidableEq

/-- The static variables of one process. -/
structure Process where
  pid : Int
  intercept : InterceptState
  hooksInit : Bool
  realVerbs : RealVerbs
  shmMapped : Bool
  tenantInitialized : Bool
  cachedPid : Int
  mandatory : Option Bool
  mrOpCountInWindow : UInt64
  mrRateWindowStart : Timespec
  verbCtxTable : List VerbCtx
  deriving Repr, DecidableEq

/-- A process that has not called any hook. -/
def Process.start (pid : Int) : Process where
  pid := pid
  intercept := ⟨false, .default, 0, 0, 0⟩
  hooksInit := false
  realVerbs := .none
  shmMapped := false
  tenantInitialized := false
  cachedPid := 0
  mandatory := none
  mrOpCountInWindow := 0
  mrRateWindowStart := ⟨0, 0⟩
  verbCtxTable := []

/-- What one call learns from the system.  `interceptInit` is what
`init_if_needed` finds: nothing if interception is not asked for, otherwise
the loaded configuration and whether the rest of the initialization
succeeds. -/
structure HookEnv where
  interceptInit : Option (InterceptConfig × Bool)
  libibverbs : Option RealVerbs
  shmInit : Bool
  tenantShmInit : Bool
  cgroup : Option (List Char)
  rdmaTenantId : Option (List Char)
  rdmaInterceptMandatory : Bool
  stat : Option (List Char)
  clock : Timespec
  clockAgain : Timespec

/-- The state a hook works on. -/
structure View where
  proc : Process
  shm : SharedMemoryData
  tenant : TenantSharedMemory

/-! ## Initialization -/

/-- `rdma_intercept_is_enabled`. -/
def rdmaInterceptIsEnabled (p : Process) : Bool :=
  p.intercept.initialized && p.intercept.config.enableIntercept

/-- `init_if_needed`. -/
def initIfNeeded (env : HookEnv) (st : InterceptState) : InterceptState :=
  match env.interceptInit with
  | none => st
  | some (config, ok) =>
      if st.initialized then st else { st with config := config, initialized := ok }

/-- `tenant_shm_init() == 0`. -/
def tenantShmReady (env : HookEnv) (p : Process) : Bool :=
  p.tenantInitialized || env.tenantShmInit

/-- Bind the process to the tenant that `RDMA_TENANT_ID` names, if any. -/
def bindFromEnv (env : HookEnv) (pid : Int) (s : TenantSharedMemory) : TenantSharedMemory :=
  match env.rdmaTenantId with
  | none => s
  | some text =>
      if 0 < (atoi text).toUInt32 then (tenantBindProcess pid (atoi text).toUInt32 s).2 else s

/-- `init_function_pointers`.  Nothing after the first step happens if
libibverbs cannot be opened. -/
def initFunctionPointers (env : HookEnv) (v : View) : View :=
  let proc := { v.proc with intercept := initIfNeeded env v.proc.intercept }
  match env.libibverbs with
  | none => { v with proc := proc }
  | some symbols =>
      let ready := tenantShmReady env v.proc
      { proc :=
          { proc with
            realVerbs := symbols
            shmMapped := env.shmInit
            tenantInitialized := ready
            cachedPid := v.proc.pid }
        shm := if env.shmInit then shmInit v.shm else v.shm
        tenant := if ready then bindFromEnv env v.proc.pid v.tenant else v.tenant }

/-- `pthread_once(&hooks_init_once, init_function_pointers)`. -/
def hooksInitOnce (env : HookEnv) (v : View) : View :=
  if v.proc.hooksInit then v
  else initFunctionPointers env { v with proc := { v.proc with hooksInit := true } }

/-! ## The tenant of the calling process -/

/-- The tenant number in a line of `/proc/self/cgroup`, 0 if there is none. -/
def cgroupTenant (line : List Char) : UInt32 :=
  match strstr "rdma:/tenant".toList line with
  | none => 0
  | some seg => (strtoul (seg.drop 12)).toUInt32

/-- The loop over `/proc/self/cgroup`: bind to the first tenant that accepts
the process. -/
def bindFromCgroup (ready : Bool) (pid : Int) :
    List (List Char) → TenantSharedMemory → Bool × TenantSharedMemory
  | [], s => (false, s)
  | line :: rest, s =>
      if cgroupTenant line ≠ 0 ∧ ready then
        if (tenantBindProcess pid (cgroupTenant line) s).1 = 0 then
          (true, (tenantBindProcess pid (cgroupTenant line) s).2)
        else bindFromCgroup ready pid rest s
      else bindFromCgroup ready pid rest s

/-- The lines of `/proc/self/cgroup` as the 512 byte buffer sees them. -/
def cgroupLines (env : HookEnv) : List (List Char) :=
  match env.cgroup with
  | none => []
  | some content => fgetsAll 512 content

/-- The cgroup step of `get_current_tenant_id`. -/
def cgroupStep (env : HookEnv) (v : View) : View :=
  let r := bindFromCgroup (tenantShmReady env v.proc) v.proc.pid (cgroupLines env) v.tenant
  { v with
    proc := { v.proc with tenantInitialized := v.proc.tenantInitialized || r.1 }
    tenant := r.2 }

/-- The re-binding after a fork: the pid changed, but the once-only
initialization did not run again. -/
def forkStep (env : HookEnv) (v : View) : View :=
  if v.proc.pid ≠ v.proc.cachedPid then
    { v with
      proc := { v.proc with cachedPid := v.proc.pid }
      tenant := bindFromEnv env v.proc.pid v.tenant }
  else v

/-- `get_current_tenant_id`. -/
def getCurrentTenantId (env : HookEnv) (v : View) : UInt32 × View :=
  let v' := cgroupStep env v
  if v'.proc.tenantInitialized then
    let v'' := forkStep env v'
    ((tenantGetProcessTenant v''.proc.pid v''.tenant).getD 0, v'')
  else (0, v')

/-! ## Accounting -/

/-- The resource codes used by the hooks: 0, 1, 3 and 4. -/
inductive ResourceKind where
  | qp
  | mr
  | cq
  | pd
  deriving Repr, DecidableEq

/-- The body of `update_tenant_resource_count` on a copy of the usage record.
Only the QP count is held at zero. -/
def countDelta (kind : ResourceKind) (delta : Int32) (u : TenantResourceUsage) :
    TenantResourceUsage :=
  match kind with
  | .qp =>
      { u with
        qpCount := if u.qpCount + delta < 0 then 0 else u.qpCount + delta
        totalQpCreates := if 0 < delta then u.totalQpCreates + 1 else u.totalQpCreates
        totalQpDestroys := if delta < 0 then u.totalQpDestroys + 1 else u.totalQpDestroys }
  | .mr =>
      { u with
        mrCount := u.mrCount + delta
        totalMrRegs := if 0 < delta then u.totalMrRegs + 1 else u.totalMrRegs
        totalMrDeregs := if delta < 0 then u.totalMrDeregs + 1 else u.totalMrDeregs }
  | .cq => { u with cqCount := u.cqCount + delta }
  | .pd => { u with pdCount := u.pdCount + delta }

/-- Copy a usage record out, change it, and copy it back. -/
def rewriteUsage (tenantId : UInt32) (f : TenantResourceUsage → TenantResourceUsage)
    (s : TenantSharedMemory) : TenantSharedMemory :=
  match tenantGetResourceUsage tenantId s with
  | none => s
  | some usage => (tenantUpdateResourceUsage tenantId (f usage) s).2

/-- `update_tenant_resource_count`. -/
def updateTenantResourceCount (tenantId : UInt32) (kind : ResourceKind) (delta : Int32)
    (v : View) : View :=
  if tenantId = 0 ∨ v.proc.tenantInitialized = false then v
  else { v with tenant := rewriteUsage tenantId (countDelta kind delta) v.tenant }

/-- The roll-back of a reservation whose verb failed. -/
def rollbackQp (u : TenantResourceUsage) : TenantResourceUsage :=
  { u with
    qpCount := if 0 < u.qpCount then u.qpCount - 1 else u.qpCount
    totalQpCreates := if 0 < u.totalQpCreates then u.totalQpCreates - 1 else u.totalQpCreates }

end MtRdma.Ports.RdmaHooks
