import MtRdma.Verified.MachineInt
import MtRdma.Ports.PolicyLocks
import MtRdma.Ports.SharedMemoryTenant

/-!
# The checks of the policy manager (`dynamic_policy_manager.c`)

`dynamic_policy_check_limit` compares a request with the limits of one rule,
and `dynamic_policy_check_tenant_limit` with the limit of one rule of a
tenant's own policy.  Both look at the numbers of the rule only: whether the
rule is enabled, and whether its resource is measured in bytes, makes no
difference to them.
-/

namespace MtRdma.Ports.PolicyChecks

open Verified.MachineInt
open SharedMemory
open SharedMemoryTenant
open DynamicPolicy (PolicyResource ResourceLimit)
open PolicyFile
open PolicySync (PolicyCall PolicyState)

/-! ## The functions -/

/-- The rule of a resource; an unknown resource has none. -/
def rule? (resource : PolicyResource) (config : DynamicPolicyConfig) : Option PolicyRule :=
  match resource with
  | .qp => some config.qpPolicy
  | .mr => some config.mrPolicy
  | .cq => some config.cqPolicy
  | .pd => some config.pdPolicy
  | .memory => some config.memoryPolicy
  | .other _ => none

/-- `dynamic_policy_get_limit`; `none` is the return value `-1`. -/
def dynamicPolicyGetLimit (resource : PolicyResource) (config : DynamicPolicyConfig) :
    Option ResourceLimit :=
  (rule? resource config).map PolicyRule.limit

/-- The global usage that counts for a resource: only two of them have one. -/
def globalCurrent (resource : PolicyResource) (globalUsage : ResourceUsage) : UInt32 :=
  match resource with
  | .qp => globalUsage.qpCount.toUInt32
  | .mr => globalUsage.mrCount.toUInt32
  | _ => 0

/-- `dynamic_policy_check_limit`: `true` means exceeded.  `globalUsage` is what
`shm_get_global_resources` finds. -/
def dynamicPolicyCheckLimit (resource : PolicyResource) (currentUsage requestedAmount : UInt32)
    (globalUsage : ResourceUsage) (config : DynamicPolicyConfig) : Bool :=
  match dynamicPolicyGetLimit resource config with
  | none => false
  | some limit =>
      if limit.maxGlobal < globalCurrent resource globalUsage + requestedAmount then true
      else if limit.maxPerProcess < currentUsage + requestedAmount then true
      else false

/-- `g_tenant_policies`: of each entry, the policy. -/
abbrev TenantPolicies := TenantIdx → DynamicPolicyConfig

/-- `dynamic_policy_get_tenant_policy`; `none` is the return value `-1`. -/
def dynamicPolicyGetTenantPolicy (tenantId : UInt32) (policies : TenantPolicies) :
    Option DynamicPolicyConfig :=
  (tenantIdx? tenantId).map policies

/-- `dynamic_policy_check_tenant_limit`: `true` means exceeded.  The limit is
`max_per_process` for each of the five resources. -/
def dynamicPolicyCheckTenantLimit (tenantId : UInt32) (resource : PolicyResource)
    (currentUsage requestedAmount : UInt32) (policies : TenantPolicies) : Bool :=
  match dynamicPolicyGetTenantPolicy tenantId policies with
  | none => false
  | some policy =>
      match dynamicPolicyGetLimit resource policy with
      | none => false
      | some limit => decide (limit.maxPerProcess < currentUsage + requestedAmount)

/-! ## What the check reports -/

/-- One of the two numbers of the rule that the check looks at is exceeded. -/
def Exceeds (resource : PolicyResource) (currentUsage requestedAmount : UInt32)
    (globalUsage : ResourceUsage) (rule : PolicyRule) : Prop :=
  rule.limit.maxGlobal.toNat <
      (globalCurrent resource globalUsage).toNat + requestedAmount.toNat ∨
    rule.limit.maxPerProcess.toNat < currentUsage.toNat + requestedAmount.toNat

section Checks

variable {resource : PolicyResource} {currentUsage requestedAmount : UInt32}
  {globalUsage : ResourceUsage} {config : DynamicPolicyConfig}

/-- Where no sum wraps, the check reports exactly what the two numbers say. -/
theorem dynamicPolicyCheckLimit_iff
    (hglobal : (globalCurrent resource globalUsage).toNat + requestedAmount.toNat < 2 ^ 32)
    (hcurrent : currentUsage.toNat + requestedAmount.toNat < 2 ^ 32) {rule : PolicyRule}
    (hrule : rule? resource config = some rule) :
    dynamicPolicyCheckLimit resource currentUsage requestedAmount globalUsage config = true ↔
      Exceeds resource currentUsage requestedAmount globalUsage rule := by
  unfold dynamicPolicyCheckLimit dynamicPolicyGetLimit Exceeds
  rw [hrule]
  simp only [Option.map_some, lt_add_iff_wrapped32, Nat.mod_eq_of_lt hglobal,
    Nat.mod_eq_of_lt hcurrent]
  split
  · simp [*]
  · simp [*]

/-- What the check should report for a resource with a rule. -/
def FollowsPolicy (resource : PolicyResource) (currentUsage requestedAmount : UInt32)
    (globalUsage : ResourceUsage) (config : DynamicPolicyConfig) : Prop :=
  ∀ rule, rule? resource config = some rule →
    (rule.enabled = false →
      dynamicPolicyCheckLimit resource currentUsage requestedAmount globalUsage config = false) ∧
    (rule.enabled = true → resource = .qp ∨ resource = .mr →
      (dynamicPolicyCheckLimit resource currentUsage requestedAmount globalUsage config = true ↔
        rule.limit.maxGlobal.toNat <
            (globalCurrent resource globalUsage).toNat + requestedAmount.toNat ∨
          rule.limit.maxPerProcess.toNat < currentUsage.toNat + requestedAmount.toNat)) ∧
    (rule.enabled = true → resource = .memory →
      (dynamicPolicyCheckLimit resource currentUsage requestedAmount globalUsage config = true ↔
        rule.limit.maxMemory.toNat < currentUsage.toNat + requestedAmount.toNat))

/-- The check follows the policy exactly where the two numbers of the rule are
not exceeded although it is disabled, and where for memory they say the same as
the number of bytes. -/
theorem followsPolicy_iff
    (hglobal : (globalCurrent resource globalUsage).toNat + requestedAmount.toNat < 2 ^ 32)
    (hcurrent : currentUsage.toNat + requestedAmount.toNat < 2 ^ 32) :
    FollowsPolicy resource currentUsage requestedAmount globalUsage config ↔
      ∀ rule, rule? resource config = some rule →
        (rule.enabled = false →
          ¬Exceeds resource currentUsage requestedAmount globalUsage rule) ∧
        (rule.enabled = true → resource = .memory →
          (Exceeds resource currentUsage requestedAmount globalUsage rule ↔
            rule.limit.maxMemory.toNat < currentUsage.toNat + requestedAmount.toNat)) := by
  refine forall_congr' fun rule => forall_congr' fun hrule => ?_
  have hreport := dynamicPolicyCheckLimit_iff hglobal hcurrent hrule
  have hsilent := (not_congr hreport)
  rw [Bool.not_eq_true] at hsilent
  rw [hreport, hsilent]
  -- for queue pairs and memory regions the two numbers are the policy
  refine and_congr_right fun _ => and_iff_right_of_imp fun _ _ _ => ?_
  exact Iff.rfl

end Checks

/-! ## Configurations that can be reached -/

/-- The states of the policy manager after `dynamic_policy_init` and any calls
that change the configuration. -/
inductive Reachable : PolicyState → Prop
  | init (shmInitOk threadOk : Bool) (now : PolicyResource → Int) (w : PolicyState) :
      Reachable ((PolicyCall.init shmInitOk threadOk now).exec w).2
  | call {w : PolicyState} (c : PolicyCall) : Reachable w → Reachable (c.exec w).2
  | enableRule {w : PolicyState} (resource : PolicyResource) (enable : Bool) :
      Reachable w → Reachable { w with config := PolicyLocks.enableRule resource enable w.config }

theorem init_config (shmInitOk threadOk : Bool) (now : PolicyResource → Int) (w : PolicyState) :
    ((PolicyCall.init shmInitOk threadOk now).exec w).2.config = setDefaultConfig now := by
  cases shmInitOk <;> rfl

/-- The manager right after `dynamic_policy_init`. -/
def startedManager : PolicyState :=
  ((PolicyCall.init true true fun _ => 0).exec ⟨setDefaultConfig fun _ => 0, false, zeroed⟩).2

theorem startedManager_reachable : Reachable startedManager := Reachable.init ..

theorem startedManager_config : startedManager.config = setDefaultConfig fun _ => 0 :=
  init_config ..

/-- Right after `dynamic_policy_init` one byte is too much for the limit of ten
gigabytes, and a disabled rule goes on reporting. -/
theorem checkLimit_against_policy :
    Reachable startedManager ∧
      dynamicPolicyCheckLimit .memory 0 1 .zero startedManager.config = true ∧
      ¬FollowsPolicy .memory 0 1 .zero startedManager.config ∧
      ∃ w, Reachable w ∧ dynamicPolicyCheckLimit .qp 0 101 .zero w.config = true ∧
        ¬FollowsPolicy .qp 0 101 .zero w.config := by
  have hmemory : dynamicPolicyCheckLimit .memory 0 1 .zero startedManager.config = true := by
    rw [startedManager_config]
    rfl
  have hqp : dynamicPolicyCheckLimit .qp 0 101 .zero
      (PolicyLocks.enableRule .qp false startedManager.config) = true := by
    rw [startedManager_config]
    rfl
  refine ⟨startedManager_reachable, hmemory, ?_, _,
    startedManager_reachable.enableRule .qp false, hqp, ?_⟩
  · intro h
    rw [startedManager_config] at h hmemory
    have hbytes := ((h _ rfl).2.2 rfl rfl).mp hmemory
    exact absurd hbytes (by decide)
  · intro h
    have hsilent := (h _ rfl).1 rfl
    rw [hqp] at hsilent
    cases hsilent

/-- An enabled rule for queue pairs: the default configuration is followed. -/
theorem default_qp_check_followsPolicy :
    FollowsPolicy .qp 99 2 ⟨500, 0, 0⟩ (setDefaultConfig fun _ => 0) := by
  refine (followsPolicy_iff (by decide) (by decide)).mpr ?_
  intro rule hrule
  obtain rfl := Option.some.inj hrule
  exact ⟨by simp [setDefaultConfig, initDefaultRule], fun _ hmem => nomatch hmem⟩

end MtRdma.Ports.PolicyChecks
