import MtRdma.Verified.Runs
import MtRdma.Ports.PolicyFile

/-!
# The policy in force and the limits in the segment

The policy manager keeps its configuration in its own memory and mirrors three
numbers of it in the shared segment, where the hooks read them.
`dynamic_policy_init`, `dynamic_policy_set_limit` and `dynamic_policy_update`
copy the numbers after they have changed the configuration;
`dynamic_policy_load_config` and `dynamic_policy_set_default` do not.

The calls below work on the whole configuration.  Restricted to the limits,
the three that copy are the writers of `DynamicPolicy` (`exec_writer`).  The
mirror stays exact as long as the other two change none of the three numbers.
-/

namespace MtRdma.Ports.PolicySync

open Verified.Runs
open SharedMemory (SharedMemoryData shmInit shmSetGlobalLimits)
open DynamicPolicy
open PolicyFile

/-! ## The calls -/

/-- `g_policy_config`, whether the process has mapped the segment, and the
segment. -/
structure PolicyState where
  config : DynamicPolicyConfig
  shmMapped : Bool
  shm : SharedMemoryData

/-- What `DynamicPolicy` sees of the manager. -/
def PolicyState.manager (w : PolicyState) : PolicyManager := ⟨w.config.limits, w.shmMapped⟩

/-- Copy the three numbers to the segment and return `rc`. -/
def syncConfig (rc : Int) (w : PolicyState) : Int × PolicyState :=
  ((syncLimits rc w.manager w.shm).rc, { w with shm := (syncLimits rc w.manager w.shm).shm })

/-- The switch of `dynamic_policy_set_limit` on the whole configuration. -/
def setRuleLimit (resource : PolicyResource) (limit : ResourceLimit)
    (config : DynamicPolicyConfig) : Option DynamicPolicyConfig :=
  match resource with
  | .qp => some { config with qpPolicy.limit := limit }
  | .mr => some { config with mrPolicy.limit := limit }
  | .cq => some { config with cqPolicy.limit := limit }
  | .pd => some { config with pdPolicy.limit := limit }
  | .memory => some { config with memoryPolicy.limit := limit }
  | .other _ => none

/-- Calls that change the configuration.  A null pointer, or a file that cannot
be opened, is `none`; the answers of `shm_init` and `pthread_create` and the
times read for the default rules are given. -/
inductive PolicyCall where
  | init (shmInitOk threadOk : Bool) (now : PolicyResource → Int)
  | setLimit (resource : PolicyResource) (limit : Option ResourceLimit)
  | update (config : Option DynamicPolicyConfig)
  | loadConfig (file : Option (List Char))
  | setDefault (now : PolicyResource → Int)

/-- Return value and state after one call. -/
def PolicyCall.exec (w : PolicyState) : PolicyCall → Int × PolicyState
  | .init shmInitOk threadOk now =>
      if shmInitOk then
        syncConfig (if threadOk then 0 else -1) ⟨setDefaultConfig now, true, shmInit w.shm⟩
      else (-1, { w with config := setDefaultConfig now })
  | .setLimit resource limit =>
      match limit with
      | none => (-1, w)
      | some limit =>
          match setRuleLimit resource limit w.config with
          | none => (-1, w)
          | some config => syncConfig 0 { w with config := config }
  | .update config =>
      match config with
      | none => (-1, w)
      | some config => syncConfig 0 { w with config := config }
  | .loadConfig file =>
      ((dynamicPolicyLoadConfig file w.config).1,
        { w with config := (dynamicPolicyLoadConfig file w.config).2 })
  | .setDefault now => (0, { w with config := setDefaultConfig now })

/-- `dynamic_policy_get_config`; `none` is the return value `-1` for a null
pointer. -/
def dynamicPolicyGetConfig (wanted : Bool) (w : PolicyState) : Option DynamicPolicyConfig :=
  if wanted then some w.config else none

/-! ## The calls that copy are the writers of the limits -/

/-- The writer of `DynamicPolicy` behind a call. -/
def PolicyCall.writer? : PolicyCall → Option LimitWriter
  | .init shmInitOk threadOk _ => some (.policyInit shmInitOk threadOk)
  | .setLimit resource limit => some (.setLimit resource limit)
  | .update config => some (.update (config.map DynamicPolicyConfig.limits))
  | .loadConfig _ => none
  | .setDefault _ => none

theorem setRuleLimit_limits (resource : PolicyResource) (limit : ResourceLimit)
    (config : DynamicPolicyConfig) :
    (setRuleLimit resource limit config).map DynamicPolicyConfig.limits =
      config.limits.setLimit resource limit := by
  cases resource <;> rfl

theorem syncConfig_refines (rc : Int) (w : PolicyState) :
    (syncConfig rc w).1 = (syncLimits rc w.manager w.shm).rc ∧
      (syncConfig rc w).2.manager = (syncLimits rc w.manager w.shm).manager ∧
      (syncConfig rc w).2.shm = (syncLimits rc w.manager w.shm).shm := by
  refine ⟨rfl, ?_, rfl⟩
  show w.manager = _
  unfold syncLimits
  split
  · rfl
  · rfl

/-- On the limits and the segment, a call that copies is the writer of
`DynamicPolicy`. -/
theorem exec_writer {call : PolicyCall} {writer : LimitWriter}
    (h : call.writer? = some writer) (w : PolicyState) :
    (call.exec w).1 = (writer.run w.manager w.shm).rc ∧
      (call.exec w).2.manager = (writer.run w.manager w.shm).manager ∧
      (call.exec w).2.shm = (writer.run w.manager w.shm).shm := by
  cases call with
  | init shmInitOk threadOk now =>
      cases h
      cases shmInitOk with
      | false => exact ⟨rfl, rfl, rfl⟩
      | true => exact syncConfig_refines (if threadOk then 0 else -1) _
  | setLimit resource limit =>
      cases h
      cases limit with
      | none => exact ⟨rfl, rfl, rfl⟩
      | some limit =>
          have hlimits := setRuleLimit_limits resource limit w.config
          simp only [PolicyCall.exec, LimitWriter.run, dynamicPolicySetLimit]
          rw [show w.manager.config = w.config.limits from rfl, ← hlimits]
          cases setRuleLimit resource limit w.config with
          | none => exact ⟨rfl, rfl, rfl⟩
          | some config => exact syncConfig_refines 0 { w with config := config }
  | update config =>
      cases h
      cases config with
      | none => exact ⟨rfl, rfl, rfl⟩
      | some config => exact syncConfig_refines 0 { w with config := config }
  | loadConfig | setDefault => cases h

/-! ## In step -/

/-- The segment holds the three numbers of `config`. -/
def Mirrors (config : DynamicPolicyConfig) (s : SharedMemoryData) : Prop :=
  s.maxGlobalQp = config.qpPolicy.limit.maxGlobal ∧
    s.maxGlobalMr = config.mrPolicy.limit.maxGlobal ∧
    s.maxGlobalMemory = config.memoryPolicy.limit.maxMemory

/-- The segment is mapped and mirrors the configuration in force. -/
structure InStep (w : PolicyState) : Prop where
  mapped : w.shmMapped = true
  mirrors : Mirrors w.config w.shm

theorem syncConfig_inStep {w : PolicyState} (hmapped : w.shmMapped = true) (rc : Int) :
    InStep (syncConfig rc w).2 := by
  have hmanager : w.manager.shmMapped = true := hmapped
  refine ⟨hmapped, ?_⟩
  simp only [syncConfig, syncLimits, hmanager, if_true]
  exact ⟨rfl, rfl, rfl⟩

/-- A changed configuration that is copied. -/
theorem InStep.sync {w : PolicyState} (h : InStep w) (config : DynamicPolicyConfig) :
    InStep (syncConfig 0 { w with config := config }).2 :=
  syncConfig_inStep (w := { w with config := config }) h.mapped 0

/-- A successful initialisation has copied the defaults. -/
theorem init_inStep {w w' : PolicyState} {shmInitOk threadOk : Bool}
    {now : PolicyResource → Int}
    (h : (PolicyCall.init shmInitOk threadOk now).exec w = (0, w')) : InStep w' := by
  cases shmInitOk with
  | false =>
      have hrc : (-1 : Int) = 0 := congrArg Prod.fst h
      cases hrc
  | true =>
      have hafter : (syncConfig (if threadOk then 0 else -1)
          ⟨setDefaultConfig now, true, shmInit w.shm⟩).2 = w' := congrArg Prod.snd h
      rw [← hafter]
      exact syncConfig_inStep rfl _

/-- A call without copying keeps the mirror exactly when it keeps the three
numbers. -/
theorem InStep.config_iff {w : PolicyState} (h : InStep w) (config : DynamicPolicyConfig) :
    InStep { w with config := config } ↔
      config.qpPolicy.limit.maxGlobal = w.config.qpPolicy.limit.maxGlobal ∧
        config.mrPolicy.limit.maxGlobal = w.config.mrPolicy.limit.maxGlobal ∧
        config.memoryPolicy.limit.maxMemory = w.config.memoryPolicy.limit.maxMemory := by
  obtain ⟨hqp, hmr, hmemory⟩ := h.mirrors
  constructor
  · rintro ⟨_, hqp', hmr', hmemory'⟩
    exact ⟨hqp'.symm.trans hqp, hmr'.symm.trans hmr, hmemory'.symm.trans hmemory⟩
  · rintro ⟨hqp', hmr', hmemory'⟩
    exact ⟨h.mapped, hqp.trans hqp'.symm, hmr.trans hmr'.symm, hmemory.trans hmemory'.symm⟩

/-! ## Files and defaults that change none of the three numbers -/

/-- What the call writes to the three numbers, if anything, is what is in
force: for a file this is about the last line for each key. -/
def KeepsGlobals (config : DynamicPolicyConfig) : PolicyCall → Prop
  | .loadConfig (some text) =>
      (∀ val, lastValue .maxGlobalQp (fileEntries text) = some val →
        val = config.qpPolicy.limit.maxGlobal) ∧
      (∀ val, lastValue .maxGlobalMr (fileEntries text) = some val →
        val = config.mrPolicy.limit.maxGlobal) ∧
      ∀ val, lastValue .maxMemoryMb (fileEntries text) = some val →
        val.toUInt64 * 1024 * 1024 = config.memoryPolicy.limit.maxMemory
  | .setDefault _ =>
      config.qpPolicy.limit.maxGlobal = 1000 ∧ config.mrPolicy.limit.maxGlobal = 10000 ∧
        config.memoryPolicy.limit.maxMemory = 10 * 1024 * 1024 * 1024
  | _ => True

theorem getD_map_eq_iff {α β : Type} {f : α → β} {o : Option α} {b : β} :
    (o.map f).getD b = b ↔ ∀ a, o = some a → f a = b := by
  cases o with
  | none | some => simp

theorem InStep.load_iff {w : PolicyState} (h : InStep w) (text : List Char) :
    InStep ((PolicyCall.loadConfig (some text)).exec w).2 ↔
      KeepsGlobals w.config (.loadConfig (some text)) := by
  show InStep { w with config := (dynamicPolicyLoadConfig (some text) w.config).2 } ↔ _
  rw [h.config_iff, load_eq_foldl]
  simp only [limits_foldl_applyEntry, getD_map_eq_iff]
  rfl

theorem InStep.setDefault_iff {w : PolicyState} (h : InStep w) (now : PolicyResource → Int) :
    InStep ((PolicyCall.setDefault now).exec w).2 ↔
      KeepsGlobals w.config (.setDefault now) := by
  show InStep { w with config := setDefaultConfig now } ↔ _
  rw [h.config_iff]
  constructor
  · rintro ⟨hqp, hmr, hmemory⟩
    exact ⟨hqp.symm, hmr.symm, hmemory.symm⟩
  · rintro ⟨hqp, hmr, hmemory⟩
    exact ⟨hqp.symm, hmr.symm, hmemory.symm⟩

/-- **One successful call** keeps the segment in step exactly when it keeps the
three numbers or copies them. -/
theorem InStep.step_iff {w w' : PolicyState} (h : InStep w) {call : PolicyCall}
    (hok : call.exec w = (0, w')) : InStep w' ↔ KeepsGlobals w.config call := by
  have hafter : (call.exec w).2 = w' := congrArg Prod.snd hok
  cases call with
  | init shmInitOk threadOk now => exact iff_of_true (init_inStep hok) trivial
  | setLimit resource limit =>
      refine iff_of_true ?_ trivial
      rw [← hafter]
      cases limit with
      | none => exact h
      | some limit =>
          simp only [PolicyCall.exec]
          cases setRuleLimit resource limit w.config with
          | none => exact h
          | some config => exact h.sync config
  | update config =>
      refine iff_of_true ?_ trivial
      rw [← hafter]
      cases config with
      | none => exact h
      | some config => exact h.sync config
  | loadConfig file =>
      cases file with
      | none =>
          have hrc : (-1 : Int) = 0 := congrArg Prod.fst hok
          cases hrc
      | some text =>
          rw [← hafter]
          exact h.load_iff text
  | setDefault now =>
      rw [← hafter]
      exact h.setDefault_iff now

/-! ## Whole runs -/

/-- One successful call. -/
def PolicyStep (w : PolicyState) (call : PolicyCall) (w' : PolicyState) : Prop :=
  call.exec w = (0, w')

/-- Successful calls that keep the three numbers or copy them. -/
def KeepingStep (w : PolicyState) (call : PolicyCall) (w' : PolicyState) : Prop :=
  KeepsGlobals w.config call ∧ PolicyStep w call w'

/-- **Policy and shared limits stay in step.**  After a successful
`dynamic_policy_init` and any successful calls, among which no file and no
reset to the defaults changes the three global numbers, the segment holds the
numbers of the configuration that `dynamic_policy_get_config` returns. -/
theorem policy_mirrored {w₀ w₁ w : PolicyState} {shmInitOk threadOk : Bool}
    {now : PolicyResource → Int} {calls : List PolicyCall}
    (hinit : PolicyStep w₀ (.init shmInitOk threadOk now) w₁)
    (hrun : Run KeepingStep w₁ calls w) (config : DynamicPolicyConfig)
    (hget : dynamicPolicyGetConfig true w = some config) :
    w.shm.maxGlobalQp = config.qpPolicy.limit.maxGlobal ∧
      w.shm.maxGlobalMr = config.mrPolicy.limit.maxGlobal ∧
      w.shm.maxGlobalMemory = config.memoryPolicy.limit.maxMemory := by
  have hstep : InStep w := by
    refine hrun.invariant (init_inStep hinit) ?_
    rintro w₂ call w₃ h ⟨hkeeps, hok⟩
    exact (h.step_iff hok).mpr hkeeps
  obtain rfl : w.config = config := Option.some.inj hget
  exact hstep.mirrors

/-- A process that has just started, on a new segment. -/
def startState : PolicyState := ⟨setDefaultConfig fun _ => 0, false, SharedMemory.zeroed⟩

/-- The same after `dynamic_policy_init`. -/
def initialised : PolicyState := ((PolicyCall.init true true fun _ => 0).exec startState).2

/-- The QP limits are then set to 50 per process and 750 in all. -/
def limited : PolicyState :=
  ((PolicyCall.setLimit .qp (some ⟨50, 750, 0⟩)).exec initialised).2

theorem initialised_step : PolicyStep startState (.init true true fun _ => 0) initialised := rfl

theorem limited_step : PolicyStep initialised (.setLimit .qp (some ⟨50, 750, 0⟩)) limited := rfl

/-- A file that states the global QP limit in force, and a new one per process. -/
def keptFile : List Char := "max_global_qp 750\nmax_qp_per_process 20\n".toList

def reloaded : PolicyState := ((PolicyCall.loadConfig (some keptFile)).exec limited).2

theorem reloaded_keeps : KeepsGlobals limited.config (.loadConfig (some keptFile)) := by
  have hqp : lastValue .maxGlobalQp (fileEntries keptFile) = some 750 := by decide
  have hmr : lastValue .maxGlobalMr (fileEntries keptFile) = none := by decide
  have hmemory : lastValue .maxMemoryMb (fileEntries keptFile) = none := by decide
  simp only [KeepsGlobals, hqp, hmr, hmemory]
  exact ⟨fun val h => (Option.some.inj h).symm, nofun, nofun⟩

theorem policy_mirrored_reloaded :
    reloaded.shm.maxGlobalQp = reloaded.config.qpPolicy.limit.maxGlobal ∧
      reloaded.shm.maxGlobalMr = reloaded.config.mrPolicy.limit.maxGlobal ∧
      reloaded.shm.maxGlobalMemory = reloaded.config.memoryPolicy.limit.maxMemory := by
  have hlimited : Run KeepingStep initialised [.setLimit .qp (some ⟨50, 750, 0⟩)] limited :=
    Run.start.snoc ⟨trivial, limited_step⟩
  exact policy_mirrored initialised_step (hlimited.snoc ⟨reloaded_keeps, rfl⟩) reloaded.config rfl

/-- Neither a file nor the reset to the defaults reaches the segment: it keeps
1000 where the file has set 5, and 750 where the defaults are back to 1000. -/
theorem unsynced_policy :
    (∃ w, Run PolicyStep startState
        [.init true true fun _ => 0, .loadConfig (some "max_global_qp 5\n".toList)] w ∧
      w.shm.maxGlobalQp = 1000 ∧ w.config.qpPolicy.limit.maxGlobal = 5) ∧
    ∃ w, Run PolicyStep startState
        [.init true true fun _ => 0, .setLimit .qp (some ⟨50, 750, 0⟩),
          .setDefault fun _ => 0] w ∧
      w.shm.maxGlobalQp = 750 ∧ w.config.qpPolicy.limit.maxGlobal = 1000 := by
  constructor
  · exact ⟨((PolicyCall.loadConfig (some "max_global_qp 5\n".toList)).exec initialised).2,
      .snoc (.snoc .start initialised_step) rfl, rfl, by decide⟩
  · exact ⟨((PolicyCall.setDefault fun _ => 0).exec limited).2,
      .snoc (.snoc (.snoc .start initialised_step) limited_step) rfl, rfl, rfl⟩

end MtRdma.Ports.PolicySync
