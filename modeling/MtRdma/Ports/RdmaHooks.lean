import MtRdma.Ports.HookState

/-!
# The intercepted verbs (`rdma_hooks_tenant.c`)

Each hook is a function of what the call learns from the system, of the real
verb's answer, and of the `View`.  A result records the return value, the
`errno` the hook itself sets, and whether the real verb was invoked; for QP
creation also with which attributes, since the hook may lower them first.
-/

namespace MtRdma.Ports.RdmaHooks

open SharedMemory
open SharedMemoryTenant (TenantSharedMemory TenantResourceUsage tenantBindProcess
  tenantGetInfo tenantTryAllocateQp)

/-! ## Arguments and results -/

/-- `enum ibv_qp_type`, the three restricted types apart. -/
inductive QpType where
  | rc
  | uc
  | ud
  | other (code : Nat)
  deriving Repr, DecidableEq

/-- The part of `ibv_qp_init_attr` and `ibv_qp_init_attr_ex` that the hooks
read or write. -/
structure QpInitAttr where
  qpType : QpType
  maxSendWr : UInt32
  maxRecvWr : UInt32
  deriving Repr, DecidableEq

/-- The error codes set by the hooks. -/
inductive Errno where
  | enosys
  | eperm
  | eagain
  deriving Repr, DecidableEq

/-- Result of a QP creation: the object, and the attributes the real verb was
invoked with, if it was. -/
structure CreateQpResult where
  qp : Option Nat
  errno : Option Errno
  invoked : Option QpInitAttr
  deriving Repr, DecidableEq

/-- Result of a creating hook. -/
structure CreateResult where
  object : Option Nat
  errno : Option Errno
  invoked : Bool
  deriving Repr, DecidableEq

/-- Result of a destroying hook. -/
structure DestroyResult where
  rc : Int
  errno : Option Errno
  invoked : Bool
  deriving Repr, DecidableEq

/-! ## Checks -/

/-- The window length of the rate limiter; one second if none is set. -/
def mrWindowMs (config : InterceptConfig) : UInt32 :=
  if 0 < config.mrRateLimitWindowMs then config.mrRateLimitWindowMs else 1000

/-- Start a new window on first use and when the old one has expired. -/
def renewMrWindow (env : HookEnv) (p : Process) : Process :=
  if (p.mrRateWindowStart.sec = 0 ∧ p.mrRateWindowStart.nsec = 0) ∨
      (mrWindowMs p.intercept.config).toUInt64 ≤ env.clock.ms - p.mrRateWindowStart.ms then
    { p with mrRateWindowStart := env.clockAgain, mrOpCountInWindow := 0 }
  else p

/-- The operations allowed in one window, at least one. -/
def maxMrOpsInWindow (config : InterceptConfig) : UInt64 :=
  let quotient := config.maxMrOpsPerSec.toUInt64 * (mrWindowMs config).toUInt64 / 1000
  if quotient < 1 then 1 else quotient

/-- `check_mr_rate_limit`. -/
def checkMrRateLimit (env : HookEnv) (p : Process) : Bool × Process :=
  if p.intercept.config.enableMrRateLimit = false ∨ p.intercept.config.maxMrOpsPerSec = 0 then
    (true, p)
  else
    let q := renewMrWindow env p
    if q.mrOpCountInWindow < maxMrOpsInWindow p.intercept.config then
      (true, { q with mrOpCountInWindow := q.mrOpCountInWindow + 1 })
    else (false, q)

/-- The type switch of both restriction checks. -/
def qpTypeAllowed (config : InterceptConfig) : QpType → Bool
  | .rc => config.allowRcQp
  | .uc => config.allowUcQp
  | .ud => config.allowUdQp
  | .other _ => true

/-- The per-process limit of both restriction checks; it only applies if the
usage could be read. -/
def processLimitOk (v : View) : Bool :=
  if v.proc.shmMapped then
    match shmGetProcessResources v.proc.pid v.shm with
    | none => true
    | some usage => ¬(v.proc.intercept.config.maxQpPerProcess < usage.qpCount.toUInt32 + 1)
  else true

/-- The global limit of both restriction checks. -/
def globalLimitOk (v : View) : Bool :=
  if v.proc.shmMapped then
    ¬(v.proc.intercept.config.maxGlobalQp ≤ (shmGetGlobalResources v.shm).qpCount.toUInt32)
  else true

/-- `check_qp_creation_restrictions`. -/
def checkQpCreationRestrictions (attr : QpInitAttr) (v : View) : Bool :=
  if v.proc.intercept.config.enableQpControl = false then true
  else
    qpTypeAllowed v.proc.intercept.config attr.qpType &&
    processLimitOk v &&
    !(v.proc.intercept.config.maxSendWrLimit < attr.maxSendWr) &&
    !(v.proc.intercept.config.maxRecvWrLimit < attr.maxRecvWr) &&
    globalLimitOk v

/-- `check_qp_creation_restrictions_extended`: the same without the two
work-request limits. -/
def checkQpCreationRestrictionsExtended (attr : QpInitAttr) (v : View) : Bool :=
  if v.proc.intercept.config.enableQpControl = false then true
  else
    qpTypeAllowed v.proc.intercept.config attr.qpType && processLimitOk v && globalLimitOk v

/-- The lazy re-binding of mandatory mode for a process without a tenant. -/
def mandatoryRebind (env : HookEnv) (tenantId : UInt32) (v : View) : UInt32 × View :=
  if tenantId = 0 then
    match env.rdmaTenantId with
    | none => (tenantId, v)
    | some text =>
        let e := (MtRdma.Verified.CText.strtoul text).toUInt32
        if tenantShmReady env v.proc ∧ e ≠ 0 then
          let r := tenantBindProcess v.proc.pid e v.tenant
          if r.1 = 0 then
            (e, { v with proc := { v.proc with tenantInitialized := true }, tenant := r.2 })
          else (tenantId, { v with tenant := r.2 })
        else (tenantId, v)
  else (tenantId, v)

/-- The static variable `mandatory`, read from the environment once. -/
def latchMandatory (env : HookEnv) (v : View) : Bool × View :=
  match v.proc.mandatory with
  | some m => (m, v)
  | none =>
      (env.rdmaInterceptMandatory,
        { v with proc := { v.proc with mandatory := some env.rdmaInterceptMandatory } })

/-- `check_tenant_qp_limit`. -/
def checkTenantQpLimit (env : HookEnv) (tenantId : UInt32) (v : View) : Bool × View :=
  let latched := latchMandatory env v
  let rebound := if latched.1 then mandatoryRebind env tenantId latched.2 else (tenantId, latched.2)
  let unbound := rebound.1 = 0 ∨ rebound.2.proc.tenantInitialized = false
  if latched.1 ∧ unbound then (false, rebound.2)
  else if unbound then (true, rebound.2)
  else
    let r := tenantTryAllocateQp rebound.1 rebound.2.tenant
    (r.1, { rebound.2 with tenant := r.2 })

/-- `check_tenant_mr_limit_inline`. -/
def checkTenantMrLimitInline (tenantId : UInt32) (length : UInt64) (v : View) : Bool :=
  if tenantId = 0 ∨ v.proc.tenantInitialized = false then true
  else
    match tenantGetInfo tenantId v.tenant with
    | none => false
    | some info =>
        !(info.quota.maxMrPerTenant ≤ info.usage.mrCount.toUInt32) &&
        !(0 < info.quota.maxMemoryPerTenant &&
          info.quota.maxMemoryPerTenant < info.usage.memoryUsed + length)

/-! ## QP creation -/

/-- Lower the work-request depths to the configured limits; a limit of 0 means
none. -/
def clipAttr (config : InterceptConfig) (attr : QpInitAttr) : QpInitAttr :=
  if config.enableQpControl then
    { attr with
      maxRecvWr :=
        if 0 < config.maxRecvWrLimit ∧ config.maxRecvWrLimit < attr.maxRecvWr then
          config.maxRecvWrLimit else attr.maxRecvWr
      maxSendWr :=
        if 0 < config.maxSendWrLimit ∧ config.maxSendWrLimit < attr.maxSendWr then
          config.maxSendWrLimit else attr.maxSendWr }
  else attr

/-- The usage record a process publishes about itself. -/
def ownUsage (p : Process) : ResourceUsage :=
  ⟨p.intercept.qpCount.toInt32, p.intercept.mrCount.toInt32, p.intercept.memoryUsed⟩

/-- Count a new QP in the process. -/
def countOwnQp (p : Process) : Process :=
  { p with intercept := { p.intercept with qpCount := p.intercept.qpCount + 1 } }

/-- Write the process's usage to the process table. -/
def publish (env : HookEnv) (v : View) : View :=
  if v.proc.shmMapped then
    { v with shm := (shmUpdateProcessResources v.proc.pid (ownUsage v.proc)
        (shmReadProcStartTime env.stat) v.shm).2 }
  else v

/-- Invoke the real verb and settle the accounts: `tenantOk` says that a unit
of the quota of `tenantId` was reserved. -/
def createAndSettle (env : HookEnv) (real : QpInitAttr → Option Nat) (attr : QpInitAttr)
    (tenantOk : Bool) (tenantId : UInt32) (v : View) : CreateQpResult × View :=
  let clipped := clipAttr v.proc.intercept.config attr
  match real clipped with
  | some qp =>
      (⟨some qp, none, some clipped⟩, publish env { v with proc := countOwnQp v.proc })
  | none =>
      (⟨none, none, some clipped⟩,
        if tenantOk then { v with tenant := rewriteUsage tenantId rollbackQp v.tenant } else v)

/-- The tenant step of both creation paths: `none` denies the creation;
otherwise `tenant_ok` and the resolved tenant are handed on. -/
def tenantStep (env : HookEnv) (v : View) : Option (Bool × UInt32) × View :=
  let resolved := getCurrentTenantId env v
  if resolved.1 ≠ 0 ∧ resolved.2.proc.tenantInitialized then
    let checked := checkTenantQpLimit env resolved.1 resolved.2
    (if checked.1 then some (true, resolved.1) else none, checked.2)
  else (some (false, resolved.1), resolved.2)

/-- The tenant step and everything after it, common to both creation paths. -/
def createForTenant (env : HookEnv) (real : QpInitAttr → Option Nat) (attr : QpInitAttr)
    (v : View) : CreateQpResult × View :=
  match (tenantStep env v).1 with
  | none => (⟨none, some .eperm, none⟩, (tenantStep env v).2)
  | some (tenantOk, tenantId) =>
      createAndSettle env real attr tenantOk tenantId (tenantStep env v).2

/-- `ibv_create_qp`. -/
def ibvCreateQp (env : HookEnv) (real : QpInitAttr → Option Nat) (attr : QpInitAttr)
    (v : View) : CreateQpResult × View :=
  let v := hooksInitOnce env v
  if v.proc.realVerbs.createQp = false then (⟨none, some .enosys, none⟩, v)
  else if rdmaInterceptIsEnabled v.proc = false then (⟨real attr, none, some attr⟩, v)
  else if checkQpCreationRestrictions attr v = false then (⟨none, some .eperm, none⟩, v)
  else createForTenant env real attr v

/-- `find_original_create_qp_ex`. -/
def findOriginalCreateQpEx (context : Nat) (p : Process) : Option Nat :=
  (p.verbCtxTable.find? fun e => e.context == context).map VerbCtx.originalCreateQpEx

/-- `create_qp_ex_wrapper`; `real` takes the original callback it finds.  The
once-only initialization has run in `ibv_open_device`. -/
def createQpExWrapper (env : HookEnv) (real : Nat → QpInitAttr → Option Nat) (context : Nat)
    (attr : QpInitAttr) (v : View) : CreateQpResult × View :=
  match findOriginalCreateQpEx context v.proc with
  | none => (⟨none, some .enosys, none⟩, v)
  | some original =>
      if rdmaInterceptIsEnabled v.proc = false then
        (⟨real original attr, none, some attr⟩, v)
      else if checkQpCreationRestrictionsExtended attr v = false then
        (⟨none, some .eperm, none⟩, v)
      else createForTenant env (real original) attr v

/-! ## The other verbs -/

/-- A creating hook that only counts the new object for the tenant. -/
def createCounted (kind : ResourceKind) (found : RealVerbs → Bool) (env : HookEnv)
    (real : Option Nat) (v : View) : CreateResult × View :=
  let v := hooksInitOnce env v
  if found v.proc.realVerbs = false then (⟨none, some .enosys, false⟩, v)
  else if rdmaInterceptIsEnabled v.proc = false then (⟨real, none, true⟩, v)
  else
    match real with
    | none => (⟨none, none, true⟩, v)
    | some object =>
        let resolved := getCurrentTenantId env v
        (⟨some object, none, true⟩, updateTenantResourceCount resolved.1 kind 1 resolved.2)

/-- A destroying hook that only counts the object for the tenant. -/
def destroyCounted (kind : ResourceKind) (found : RealVerbs → Bool) (env : HookEnv) (real : Int)
    (v : View) : DestroyResult × View :=
  let v := hooksInitOnce env v
  if found v.proc.realVerbs = false then (⟨-1, some .enosys, false⟩, v)
  else if rdmaInterceptIsEnabled v.proc = false then (⟨real, none, true⟩, v)
  else if real = 0 then
    let resolved := getCurrentTenantId env v
    (⟨0, none, true⟩, updateTenantResourceCount resolved.1 kind (-1) resolved.2)
  else (⟨real, none, true⟩, v)

/-- `ibv_create_cq`. -/
def ibvCreateCq (env : HookEnv) (real : Option Nat) (v : View) : CreateResult × View :=
  createCounted .cq RealVerbs.createCq env real v

/-- `ibv_destroy_cq`. -/
def ibvDestroyCq (env : HookEnv) (real : Int) (v : View) : DestroyResult × View :=
  destroyCounted .cq RealVerbs.destroyCq env real v

/-- `ibv_alloc_pd`. -/
def ibvAllocPd (env : HookEnv) (real : Option Nat) (v : View) : CreateResult × View :=
  createCounted .pd RealVerbs.allocPd env real v

/-- `ibv_dealloc_pd`. -/
def ibvDeallocPd (env : HookEnv) (real : Int) (v : View) : DestroyResult × View :=
  destroyCounted .pd RealVerbs.deallocPd env real v

/-- Uncount a QP in the process. -/
def uncountOwnQp (p : Process) : Process :=
  { p with intercept := { p.intercept with
      qpCount := if 0 < p.intercept.qpCount then p.intercept.qpCount - 1
        else p.intercept.qpCount } }

/-- `ibv_destroy_qp`.  Unlike a creation it does not publish the process's
usage. -/
def ibvDestroyQp (env : HookEnv) (real : Int) (v : View) : DestroyResult × View :=
  let v := hooksInitOnce env v
  if v.proc.realVerbs.destroyQp = false then (⟨-1, some .enosys, false⟩, v)
  else if rdmaInterceptIsEnabled v.proc = false then (⟨real, none, true⟩, v)
  else if real = 0 then
    let resolved := getCurrentTenantId env { v with proc := uncountOwnQp v.proc }
    (⟨0, none, true⟩, updateTenantResourceCount resolved.1 .qp (-1) resolved.2)
  else (⟨real, none, true⟩, v)

/-- Count a new MR in the process. -/
def countOwnMr (length : UInt64) (p : Process) : Process :=
  { p with intercept := { p.intercept with
      mrCount := p.intercept.mrCount + 1
      memoryUsed := p.intercept.memoryUsed + length } }

/-- Uncount an MR in the process; either counter stops at zero. -/
def uncountOwnMr (length : UInt64) (p : Process) : Process :=
  { p with intercept := { p.intercept with
      mrCount := if 0 < p.intercept.mrCount then p.intercept.mrCount - 1 else p.intercept.mrCount
      memoryUsed := if length ≤ p.intercept.memoryUsed then p.intercept.memoryUsed - length
        else p.intercept.memoryUsed } }

/-- `ibv_reg_mr`.  The tenant is resolved before the verb and the result used
after it. -/
def ibvRegMr (env : HookEnv) (length : UInt64) (real : Option Nat) (v : View) :
    CreateResult × View :=
  let v := hooksInitOnce env v
  if v.proc.realVerbs.regMr = false then (⟨none, some .enosys, false⟩, v)
  else if rdmaInterceptIsEnabled v.proc = false then (⟨real, none, true⟩, v)
  else
    let resolved := getCurrentTenantId env v
    if checkTenantMrLimitInline resolved.1 length resolved.2 = false then
      (⟨none, some .eperm, false⟩, resolved.2)
    else
      let limited := checkMrRateLimit env resolved.2.proc
      if limited.1 = false then
        (⟨none, some .eagain, false⟩, { resolved.2 with proc := limited.2 })
      else
        match real with
        | none => (⟨none, none, true⟩, { resolved.2 with proc := limited.2 })
        | some mr =>
            (⟨some mr, none, true⟩, updateTenantResourceCount resolved.1 .mr 1
              { resolved.2 with proc := countOwnMr length limited.2 })

/-- `ibv_dereg_mr`; `length` is the length field of the MR, 0 for a null
pointer. -/
def ibvDeregMr (env : HookEnv) (length : UInt64) (real : Int) (v : View) :
    DestroyResult × View :=
  let v := hooksInitOnce env v
  if v.proc.realVerbs.deregMr = false then (⟨-1, some .enosys, false⟩, v)
  else if rdmaInterceptIsEnabled v.proc = false then (⟨real, none, true⟩, v)
  else
    let limited := checkMrRateLimit env v.proc
    if limited.1 = false then (⟨-1, some .eagain, false⟩, { v with proc := limited.2 })
    else if real = 0 then
      let resolved := getCurrentTenantId env { v with proc := uncountOwnMr length limited.2 }
      (⟨0, none, true⟩, updateTenantResourceCount resolved.1 .mr (-1) resolved.2)
    else (⟨real, none, true⟩, { v with proc := limited.2 })

/-! ## Opening a device -/

/-- `MAX_VERBS_CONTEXTS`. -/
def maxVerbsContexts : Nat := 16

/-- The `create_qp_ex` slot of a freshly opened context: no extended context
or an empty slot, our own wrapper, or the provider's function. -/
inductive ExCallback where
  | absent
  | wrapper
  | provider (callback : Nat)
  deriving Repr, DecidableEq

/-- The table after an open; there is no room for a seventeenth context. -/
def recordCtx (table : List VerbCtx) (context callback : Nat) : List VerbCtx :=
  if table.length < maxVerbsContexts then table ++ [⟨context, callback⟩] else table

/-- `ibv_open_device`: the context and what its slot holds afterwards.  A context
that is not recorded gets the wrapper all the same. -/
def ibvOpenDevice (env : HookEnv) (real : Option Nat) (slot : ExCallback) (v : View) :
    CreateResult × ExCallback × View :=
  let v := hooksInitOnce env v
  if v.proc.realVerbs.openDevice = false then (⟨none, some .enosys, false⟩, slot, v)
  else if rdmaInterceptIsEnabled v.proc = false then (⟨real, none, true⟩, slot, v)
  else
    match real, slot with
    | some context, .provider callback =>
        let table := recordCtx v.proc.verbCtxTable context callback
        (⟨real, none, true⟩, .wrapper, { v with proc := { v.proc with verbCtxTable := table } })
    | _, _ => (⟨real, none, true⟩, slot, v)

end MtRdma.Ports.RdmaHooks
