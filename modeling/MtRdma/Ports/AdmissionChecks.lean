import MtRdma.Ports.PolicyChecks
import MtRdma.Ports.ResourceCache
import MtRdma.Ports.HookSpec

/-!
# Admission checks in machine arithmetic

Four functions decide whether a request still fits under a limit:
`tenant_check_resource_limit`, `dynamic_policy_check_tenant_limit`,
`perf_optimizer_check_resource_fast` and `check_tenant_mr_limit_inline`.  Each
adds the request to the usage in the width of its operands and compares the sum
with the limit.  The sum may wrap, and what is asked for is chosen by the
caller.
-/

namespace MtRdma.Ports.AdmissionChecks

open Verified.MachineInt
open SharedMemory
open SharedMemoryTenant
open DynamicPolicy (PolicyResource)
open PolicyChecks
open ResourceCache
open RdmaHooks

/-! ## Decisions in unbounded integers -/

/-- A request is refused exactly when it does not fit. -/
def Exact (refused : Bool) (used requested limit : Int) : Prop :=
  refused = true ↔ limit < used + requested

/-- The sum fits in `width` bits, or what is left of it is beyond the limit
still. -/
def SumSafe (width : Nat) (used requested limit : Int) : Prop :=
  used + requested < 2 ^ width ∨ limit < used + requested - 2 ^ width

theorem exact_iff_sumSafe32 (limit x y : UInt32) :
    Exact (decide (limit < x + y)) x.toNat y.toNat limit.toNat ↔
      SumSafe 32 x.toNat y.toNat limit.toNat := by
  have hwrap := wrapped_lt_exact_iff limit.toNat_lt x.toNat_lt y.toNat_lt
  unfold Exact SumSafe
  rw [decide_eq_true_iff, lt_add_iff_wrapped32]
  omega

theorem exact_iff_sumSafe64 (limit x y : UInt64) :
    Exact (decide (limit < x + y)) x.toNat y.toNat limit.toNat ↔
      SumSafe 64 x.toNat y.toNat limit.toNat := by
  have hwrap := wrapped_lt_exact_iff limit.toNat_lt x.toNat_lt y.toNat_lt
  unfold Exact SumSafe
  rw [decide_eq_true_iff, lt_add_iff_wrapped64]
  omega

/-! ## `tenant_check_resource_limit` -/

/-- The resources with a case in the switch. -/
inductive TenantResource where
  | qp
  | mr
  | memory
  | cq
  | pd
  deriving Repr, DecidableEq

namespace TenantResource

/-- The parameter `resource_type`. -/
def code : TenantResource → Int
  | qp => 0
  | mr => 1
  | memory => 2
  | cq => 3
  | pd => 4

def used (usage : TenantResourceUsage) : TenantResource → Int
  | qp => usage.qpCount.toInt
  | mr => usage.mrCount.toInt
  | memory => usage.memoryUsed.toNat
  | cq => usage.cqCount.toInt
  | pd => usage.pdCount.toInt

def limit (quota : TenantQuota) : TenantResource → Int
  | qp => quota.maxQpPerTenant.toNat
  | mr => quota.maxMrPerTenant.toNat
  | memory => quota.maxMemoryPerTenant.toNat
  | cq => quota.maxCqPerTenant.toNat
  | pd => quota.maxPdPerTenant.toNat

/-- The width of the sum. -/
def width : TenantResource → Nat
  | memory => 64
  | _ => 32

end TenantResource

/-- A count that is not negative, promoted and added. -/
theorem count_exact_iff {count : Int32} (hcount : 0 ≤ count.toInt) (amount limit : UInt32) :
    Exact (decide (limit < count.toUInt32 + amount)) count.toInt amount.toNat limit.toNat ↔
      SumSafe 32 count.toInt amount.toNat limit.toNat := by
  rw [← toNat_toUInt32 hcount]
  exact exact_iff_sumSafe32 limit count.toUInt32 amount

theorem limitExceeded_exact_iff {usage : TenantResourceUsage} {resource : TenantResource}
    (hused : 0 ≤ resource.used usage) (quota : TenantQuota) (amount : UInt32) :
    Exact (limitExceeded usage quota resource.code amount) (resource.used usage) amount.toNat
        (resource.limit quota) ↔
      SumSafe resource.width (resource.used usage) amount.toNat (resource.limit quota) := by
  cases resource with
  | qp => exact count_exact_iff hused amount quota.maxQpPerTenant
  | mr => exact count_exact_iff hused amount quota.maxMrPerTenant
  | cq => exact count_exact_iff hused amount quota.maxCqPerTenant
  | pd => exact count_exact_iff hused amount quota.maxPdPerTenant
  | memory =>
      have hsum := exact_iff_sumSafe64 quota.maxMemoryPerTenant usage.memoryUsed amount.toUInt64
      rw [UInt32.toNat_toUInt64] at hsum
      exact hsum

theorem tenantCheckResourceLimit_active {tenantId : UInt32} {t : TenantIdx}
    {s : TenantSharedMemory} (ht : tenantIdx? tenantId = some t)
    (hactive : (s.tenants t).status = .active) (resourceType : Int) (amount : UInt32) :
    tenantCheckResourceLimit tenantId resourceType amount s =
      limitExceeded (s.tenants t).usage (s.tenants t).quota resourceType amount := by
  unfold tenantCheckResourceLimit
  rw [ht]
  simp [hactive]

/-! ## The other three -/

theorem dynamicPolicyCheckTenantLimit_eq {tenantId : UInt32} {t : TenantIdx}
    {policies : TenantPolicies} {resource : PolicyResource} {rule : PolicyFile.PolicyRule}
    (ht : tenantIdx? tenantId = some t) (hrule : rule? resource (policies t) = some rule)
    (currentUsage requestedAmount : UInt32) :
    dynamicPolicyCheckTenantLimit tenantId resource currentUsage requestedAmount policies =
      decide (rule.limit.maxPerProcess < currentUsage + requestedAmount) := by
  unfold dynamicPolicyCheckTenantLimit dynamicPolicyGetTenantPolicy dynamicPolicyGetLimit
  rw [ht]
  simp only [Option.map_some, hrule]

theorem perfOptimizerCheckResourceFast_miss {now : UInt64} {pid : Int} {o : CachedOptimizer}
    (hmiss : (perfOptimizerGetCachedResources now pid o).1 = none) (resourceType : Int)
    (current requested limit : UInt32) :
    (perfOptimizerCheckResourceFast now pid resourceType current requested limit o).1 =
      !decide (limit < current + requested) := by
  unfold perfOptimizerCheckResourceFast
  simp only [hmiss, ← decide_not, UInt32.not_lt]

theorem checkTenantMrLimitInline_memory {tenantId : UInt32} {v : View} {info : TenantInfo}
    (hne : tenantId ≠ 0) (hinit : v.proc.tenantInitialized = true)
    (hinfo : tenantGetInfo tenantId v.tenant = some info)
    (hcount : 0 ≤ info.usage.mrCount.toInt)
    (hbelow : info.usage.mrCount.toInt < info.quota.maxMrPerTenant.toNat)
    (hquota : 0 < info.quota.maxMemoryPerTenant) (length : UInt64) :
    checkTenantMrLimitInline tenantId length v =
      !decide (info.quota.maxMemoryPerTenant < info.usage.memoryUsed + length) := by
  have hmr : ¬info.quota.maxMrPerTenant ≤ info.usage.mrCount.toUInt32 := by
    rw [UInt32.le_iff_toNat_le]
    have hread := toNat_toUInt32 hcount
    omega
  unfold checkTenantMrLimitInline
  rw [if_neg (by simp [hne, hinit]), hinfo]
  simp [hmr, hquota]

/-- Each of the four checks decides as in unbounded integers exactly where its
sum does not wrap, or is beyond the limit all the same. -/
theorem admission_exact_iff_sumSafe (tenantId amount : UInt32) :
    (∀ (t : TenantIdx) (s : TenantSharedMemory) (resource : TenantResource),
      tenantIdx? tenantId = some t → (s.tenants t).status = .active →
      0 ≤ resource.used (s.tenants t).usage →
      (Exact (tenantCheckResourceLimit tenantId resource.code amount s)
          (resource.used (s.tenants t).usage) amount.toNat
          (resource.limit (s.tenants t).quota) ↔
        SumSafe resource.width (resource.used (s.tenants t).usage) amount.toNat
          (resource.limit (s.tenants t).quota))) ∧
    (∀ (t : TenantIdx) (policies : TenantPolicies) (resource : PolicyResource)
        (rule : PolicyFile.PolicyRule) (currentUsage : UInt32),
      tenantIdx? tenantId = some t → rule? resource (policies t) = some rule →
      (Exact (dynamicPolicyCheckTenantLimit tenantId resource currentUsage amount policies)
          currentUsage.toNat amount.toNat rule.limit.maxPerProcess.toNat ↔
        SumSafe 32 currentUsage.toNat amount.toNat rule.limit.maxPerProcess.toNat)) ∧
    (∀ (now : UInt64) (pid resourceType : Int) (current limit : UInt32) (o : CachedOptimizer),
      (perfOptimizerGetCachedResources now pid o).1 = none →
      (Exact (!(perfOptimizerCheckResourceFast now pid resourceType current amount limit o).1)
          current.toNat amount.toNat limit.toNat ↔
        SumSafe 32 current.toNat amount.toNat limit.toNat)) ∧
    (∀ (length : UInt64) (v : View) (info : TenantInfo),
      tenantId ≠ 0 → v.proc.tenantInitialized = true →
      tenantGetInfo tenantId v.tenant = some info → 0 ≤ info.usage.mrCount.toInt →
      info.usage.mrCount.toInt < info.quota.maxMrPerTenant.toNat →
      0 < info.quota.maxMemoryPerTenant →
      (Exact (!checkTenantMrLimitInline tenantId length v) info.usage.memoryUsed.toNat
          length.toNat info.quota.maxMemoryPerTenant.toNat ↔
        SumSafe 64 info.usage.memoryUsed.toNat length.toNat
          info.quota.maxMemoryPerTenant.toNat)) := by
  refine ⟨?_, ?_, ?_, ?_⟩
  · intro t s resource ht hactive hused
    rw [tenantCheckResourceLimit_active ht hactive]
    exact limitExceeded_exact_iff hused _ amount
  · intro t policies resource rule currentUsage ht hrule
    rw [dynamicPolicyCheckTenantLimit_eq ht hrule]
    exact exact_iff_sumSafe32 _ currentUsage amount
  · intro now pid resourceType current limit o hmiss
    rw [perfOptimizerCheckResourceFast_miss hmiss, Bool.not_not]
    exact exact_iff_sumSafe32 limit current amount
  · intro length v info hne hinit hinfo hcount hbelow hquota
    rw [checkTenantMrLimitInline_memory hne hinit hinfo hcount hbelow hquota, Bool.not_not]
    exact exact_iff_sumSafe64 _ info.usage.memoryUsed length

/-! ## One unit in use -/

/-- Tenant 1, one of each resource in use. -/
def oneInUse : TenantInfo where
  tenantId := 1
  tenantName := defaultName
  status := .active
  quota := defaultQuota
  usage := ⟨1, 1, 1, 1, 1, 1, 0, 1, 0⟩
  processCount := 0
  processes := fun _ => 0

def oneInUseSegment : TenantSharedMemory := setTenant 1 oneInUse SharedMemoryTenant.zeroed

/-- A process whose tenant segment is `oneInUseSegment`. -/
def oneInUseView : View := ⟨settledProcess 100, SharedMemory.zeroed, oneInUseSegment⟩

/-- The default policy for every tenant. -/
def defaultPolicies : TenantPolicies := fun _ => PolicyFile.setDefaultConfig fun _ => 0

theorem oneInUseSegment_one : oneInUseSegment.tenants 1 = oneInUse := by
  unfold oneInUseSegment setTenant
  exact Function.update_self 1 oneInUse SharedMemoryTenant.zeroed.tenants

theorem oneInUse_info : tenantGetInfo 1 oneInUseSegment = some oneInUse := by
  unfold tenantGetInfo
  rw [tenantIdx?_one]
  simp only [oneInUseSegment_one]
  rfl

theorem loadedCache_miss (now : UInt64) (pid : Int) :
    (perfOptimizerGetCachedResources now pid loadedCache).1 = none := by
  rw [Option.eq_none_iff_forall_ne_some]
  intro usage h
  rw [get_eq_some_iff rfl] at h
  obtain ⟨since, hholds, -⟩ := h
  cases congrArg PerformanceOptimizer.CacheEntry.valid hholds

theorem oneInUse_check (resourceType : Int) (amount : UInt32) :
    tenantCheckResourceLimit 1 resourceType amount oneInUseSegment =
      limitExceeded oneInUse.usage oneInUse.quota resourceType amount := by
  have hactive : (oneInUseSegment.tenants 1).status = .active := by
    rw [oneInUseSegment_one]
    rfl
  rw [tenantCheckResourceLimit_active tenantIdx?_one hactive, oneInUseSegment_one]

theorem oneInUse_inline (length : UInt64) :
    checkTenantMrLimitInline 1 length oneInUseView =
      !decide (oneInUse.quota.maxMemoryPerTenant < oneInUse.usage.memoryUsed + length) :=
  checkTenantMrLimitInline_memory (by decide) rfl oneInUse_info (by decide) (by decide)
    (by decide) length

/-- With one unit in use, the largest request passes each of the four
checks. -/
theorem largest_request_admitted :
    (tenantCheckResourceLimit 1 0 0xFFFFFFFF oneInUseSegment = false ∧
      ¬Exact false 1 0xFFFFFFFF 100) ∧
    (dynamicPolicyCheckTenantLimit 1 .qp 1 0xFFFFFFFF defaultPolicies = false ∧
      ¬Exact false 1 0xFFFFFFFF 100) ∧
    ((perfOptimizerCheckResourceFast 0 100 0 1 0xFFFFFFFF 100 loadedCache).1 = true ∧
      ¬Exact (!true) 1 0xFFFFFFFF 100) ∧
    checkTenantMrLimitInline 1 0xFFFFFFFFFFFFFFFF oneInUseView = true ∧
      ¬Exact (!true) 1 0xFFFFFFFFFFFFFFFF 1073741824 := by
  have htenant : tenantCheckResourceLimit 1 0 0xFFFFFFFF oneInUseSegment = false := by
    rw [oneInUse_check]
    decide
  have hpolicy : dynamicPolicyCheckTenantLimit 1 .qp 1 0xFFFFFFFF defaultPolicies = false := by
    rw [dynamicPolicyCheckTenantLimit_eq tenantIdx?_one rfl]
    decide
  have hfast :
      (perfOptimizerCheckResourceFast 0 100 0 1 0xFFFFFFFF 100 loadedCache).1 = true := by
    rw [perfOptimizerCheckResourceFast_miss (loadedCache_miss 0 100)]
    decide
  have hinline : checkTenantMrLimitInline 1 0xFFFFFFFFFFFFFFFF oneInUseView = true := by
    rw [oneInUse_inline]
    decide
  refine ⟨⟨htenant, ?_⟩, ⟨hpolicy, ?_⟩, ⟨hfast, ?_⟩, hinline, ?_⟩
  · simp [Exact]
  · simp [Exact]
  · simp [Exact]
  · simp [Exact]

/-- One more unit is decided exactly by each of the four checks. -/
theorem one_more_exact :
    Exact (tenantCheckResourceLimit 1 0 1 oneInUseSegment) 1 1 100 ∧
      Exact (dynamicPolicyCheckTenantLimit 1 .qp 1 1 defaultPolicies) 1 1 100 ∧
      Exact (!(perfOptimizerCheckResourceFast 0 100 0 1 1 100 loadedCache).1) 1 1 100 ∧
      Exact (!checkTenantMrLimitInline 1 1 oneInUseView) 1 1 1073741824 := by
  obtain ⟨htenant, hpolicy, hfast, hinline⟩ := admission_exact_iff_sumSafe 1 1
  have hone := htenant 1 oneInUseSegment .qp tenantIdx?_one
  rw [oneInUseSegment_one] at hone
  refine ⟨(hone rfl (by decide)).mpr (.inl (by decide)), ?_, ?_, ?_⟩
  · exact (hpolicy 1 defaultPolicies .qp _ 1 tenantIdx?_one rfl).mpr (.inl (by decide))
  · exact (hfast 0 100 0 1 100 loadedCache (loadedCache_miss 0 100)).mpr (.inl (by decide))
  · exact (hinline 1 oneInUseView oneInUse (by decide) rfl oneInUse_info (by decide)
      (by decide) (by decide)).mpr (.inl (by decide))

end MtRdma.Ports.AdmissionChecks
