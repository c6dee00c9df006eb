import MtRdma.Verified.CText
import MtRdma.Ports.SharedMemory

/-!
# Writers of the global limits (`dynamic_policy_manager.c`, `collector_server_shm.c`)

The policy manager keeps five limits and copies three numbers of them to the
shared segment whenever one is changed; the collector stores its own numbers
when it starts.  Both write through `shm_set_global_limits`, which does nothing
in a process that has not mapped the segment.
-/

namespace MtRdma.Ports.DynamicPolicy

open Verified.CText
open SharedMemory

/-! ## The policy -/

/-- `enum resource_type`, with the values outside it. -/
inductive PolicyResource where
  | qp
  | mr
  | cq
  | pd
  | memory
  | other (code : Nat)
  deriving Repr, DecidableEq

/-- `resource_limit_t`. -/
structure ResourceLimit where
  maxPerProcess : UInt32
  maxGlobal : UInt32
  maxMemory : UInt64
  deriving Repr, DecidableEq

/-- The limits of the five rules of `dynamic_policy_config_t`. -/
structure PolicyConfig where
  qpPolicy : ResourceLimit
  mrPolicy : ResourceLimit
  cqPolicy : ResourceLimit
  pdPolicy : ResourceLimit
  memoryPolicy : ResourceLimit
  deriving Repr, DecidableEq

/-- `set_default_config`. -/
def PolicyConfig.default : PolicyConfig where
  qpPolicy := ⟨100, 1000, 0⟩
  mrPolicy := ⟨1000, 10000, 0⟩
  cqPolicy := ⟨100, 1000, 0⟩
  pdPolicy := ⟨100, 1000, 0⟩
  memoryPolicy := ⟨0, 0, 10 * 1024 * 1024 * 1024⟩

/-- The switch of `dynamic_policy_set_limit`; an unknown resource has no
rule. -/
def PolicyConfig.setLimit (resource : PolicyResource) (limit : ResourceLimit)
    (config : PolicyConfig) : Option PolicyConfig :=
  match resource with
  | .qp => some { config with qpPolicy := limit }
  | .mr => some { config with mrPolicy := limit }
  | .cq => some { config with cqPolicy := limit }
  | .pd => some { config with pdPolicy := limit }
  | .memory => some { config with memoryPolicy := limit }
  | .other _ => none

/-- `g_policy_config`, and whether the process of the manager has mapped the
segment. -/
structure PolicyManager where
  config : PolicyConfig
  shmMapped : Bool
  deriving Repr, DecidableEq

/-- What a writer returns and leaves; `stored` is the global QP limit it has
stored in the segment, if it has stored one. -/
structure PolicyOutcome where
  rc : Int
  manager : PolicyManager
  shm : SharedMemoryData
  stored : Option UInt32

/-- Copy the limits to the segment and return `rc`. -/
def syncLimits (rc : Int) (m : PolicyManager) (s : SharedMemoryData) : PolicyOutcome :=
  if m.shmMapped then
    { rc := rc
      manager := m
      shm := shmSetGlobalLimits m.config.qpPolicy.maxGlobal m.config.mrPolicy.maxGlobal
        m.config.memoryPolicy.maxMemory s
      stored := some m.config.qpPolicy.maxGlobal }
  else ⟨rc, m, s, none⟩

/-- `dynamic_policy_set_limit`; `limit` is `none` for a null pointer. -/
def dynamicPolicySetLimit (resource : PolicyResource) (limit : Option ResourceLimit)
    (m : PolicyManager) (s : SharedMemoryData) : PolicyOutcome :=
  match limit with
  | none => ⟨-1, m, s, none⟩
  | some limit =>
      match m.config.setLimit resource limit with
      | none => ⟨-1, m, s, none⟩
      | some config => syncLimits 0 { m with config := config } s

/-- `dynamic_policy_update`; `config` is `none` for a null pointer. -/
def dynamicPolicyUpdate (config : Option PolicyConfig) (m : PolicyManager)
    (s : SharedMemoryData) : PolicyOutcome :=
  match config with
  | none => ⟨-1, m, s, none⟩
  | some config => syncLimits 0 { m with config := config } s

/-- `dynamic_policy_init`: the answers of `shm_init` and `pthread_create` are
given.  The configuration is reset first and the limits are stored before the
thread is started. -/
def dynamicPolicyInit (shmInitOk threadOk : Bool) (m : PolicyManager) (s : SharedMemoryData) :
    PolicyOutcome :=
  if shmInitOk then
    syncLimits (if threadOk then 0 else -1) ⟨.default, true⟩ (shmInit s)
  else ⟨-1, { m with config := .default }, s, none⟩

/-! ## The collector -/

/-- `update_max_global_qp`: the environment replaces the value unless it reads
as zero. -/
def updateMaxGlobalQp (text : Option (List Char)) (current : UInt32) : UInt32 :=
  match text with
  | none => current
  | some text => if 0 < (atoi text).toUInt32 then (atoi text).toUInt32 else current

/-- `update_max_global_memory`. -/
def updateMaxGlobalMemory (text : Option (List Char)) (current : UInt64) : UInt64 :=
  match text with
  | none => current
  | some text =>
      if 0 < UInt64.ofInt (strtol text) then UInt64.ofInt (strtol text) else current

/-- The limits that `initialize_service` stores, from the static defaults and
the environment, once `shm_init` has succeeded. -/
def initializeService (maxQp maxMemory : Option (List Char)) (s : SharedMemoryData) :
    SharedMemoryData :=
  shmSetGlobalLimits (updateMaxGlobalQp maxQp 10) 1000
    (updateMaxGlobalMemory maxMemory (1024 * 1024 * 1024 * 10)) (shmInit s)

/-! ## All writers -/

/-- A call that may store limits. -/
inductive LimitWriter where
  | collector (maxQp maxMemory : Option (List Char))
  | policyInit (shmInitOk threadOk : Bool)
  | setLimit (resource : PolicyResource) (limit : Option ResourceLimit)
  | update (config : Option PolicyConfig)

/-- The collector has no part in the manager's state. -/
def LimitWriter.run (writer : LimitWriter) (m : PolicyManager) (s : SharedMemoryData) :
    PolicyOutcome :=
  match writer with
  | .collector maxQp maxMemory =>
      ⟨0, m, initializeService maxQp maxMemory s, some (updateMaxGlobalQp maxQp 10)⟩
  | .policyInit shmInitOk threadOk => dynamicPolicyInit shmInitOk threadOk m s
  | .setLimit resource limit => dynamicPolicySetLimit resource limit m s
  | .update config => dynamicPolicyUpdate config m s

theorem syncLimits_stored {rc : Int} {m : PolicyManager} {s : SharedMemoryData} {q : UInt32}
    (h : (syncLimits rc m s).stored = some q) : (syncLimits rc m s).shm.maxGlobalQp = q := by
  unfold syncLimits at h ⊢
  split at h
  · rw [if_pos (by assumption)]
    exact Option.some.inj h
  · cases h

/-- What a writer says it has stored is in the segment when it returns. -/
theorem LimitWriter.run_stored {writer : LimitWriter} {m : PolicyManager}
    {s : SharedMemoryData} {q : UInt32} (h : (writer.run m s).stored = some q) :
    (writer.run m s).shm.maxGlobalQp = q := by
  cases writer with
  | collector maxQp maxMemory => exact Option.some.inj h
  | policyInit shmInitOk threadOk =>
      cases shmInitOk with
      | false => cases h
      | true =>
          simp only [run, dynamicPolicyInit, if_true] at h ⊢
          exact syncLimits_stored h
  | setLimit resource limit =>
      cases limit with
      | none => cases h
      | some limit =>
          cases resource with
          | qp | mr | cq | pd | memory => exact syncLimits_stored h
          | other code => cases h
  | update config =>
      cases config with
      | none => cases h
      | some config => exact syncLimits_stored h

end MtRdma.Ports.DynamicPolicy
