import MtRdma.Ports.HookAccounting

/-!
# The memory quota of a tenant

`check_tenant_mr_limit_inline` compares `memory_used` plus the new length with
the quota.  None of the nine counting hooks ever writes `memory_used`: the
count of an MR changes `mr_count` and two totals.  So each registration is
compared with the quota on its own, and the sum of the registered lengths has
no bound.  The record is right exactly as long as nothing of positive length is
registered.
-/

namespace MtRdma.Ports.RdmaHooks

open Verified.Runs
open SharedMemory
open SharedMemoryTenant

/-! ## No hook writes `memory_used` -/

theorem countDelta_memoryUsed (kind : ResourceKind) (delta : Int32) (u : TenantResourceUsage) :
    (countDelta kind delta u).memoryUsed = u.memoryUsed := by
  cases kind <;> rfl

theorem clampQp_memoryUsed (u : TenantResourceUsage) : (clampQp u).memoryUsed = u.memoryUsed := by
  unfold clampQp
  split <;> rfl

/-- What no call changes. -/
structure SameMemory (l l' : Ledger) : Prop where
  status : l'.status = l.status
  quota : l'.quota = l.quota
  memoryUsed : l'.usage.memoryUsed = l.usage.memoryUsed

theorem SameMemory.withUsage {l : Ledger} {u : TenantResourceUsage}
    (h : u.memoryUsed = l.usage.memoryUsed) : SameMemory l (withUsage l u) := ⟨rfl, rfl, h⟩

theorem CreateQpOutcome.sameMemory {l l' : Ledger} {r : CreateQpResult}
    (h : CreateQpOutcome l r l') : SameMemory l l' := by
  have hclamp := clampQp_memoryUsed l.usage
  cases h with
  | refused _ _ => exact ⟨rfl, rfl, rfl⟩
  | overQuota | created | failed => exact .withUsage hclamp

theorem CallMove.sameMemory {l l' : Ledger} {call : HookCall} {r : HookReport}
    (h : CallMove l call r l') : SameMemory l l' := by
  have hcount : ∀ kind delta,
      SameMemory l (RdmaHooks.withUsage l (countDelta kind delta l.usage)) :=
    fun kind delta => .withUsage (countDelta_memoryUsed kind delta l.usage)
  have hsame : SameMemory l l := ⟨rfl, rfl, rfl⟩
  cases h with
  | createQp _ _ hout => exact hout.sameMemory
  | regMr _ _ _ _ =>
      split
      · exact hcount .mr 1
      · exact hsame
  | create _ _ =>
      split
      · exact hcount call.kind 1
      · exact hsame
  | destroy _ =>
      split
      · exact hcount call.kind (-1)
      · exact hsame

/-! ## The lengths of the registered MRs -/

/-- The world of one tenant, with the length of every MR. -/
structure MemoryWorld (ι : Type) extends HookWorld ι where
  length : ι × Nat → UInt64

/-- The two hooks. -/
inductive MemoryCall where
  | regMr (env : HookEnv) (length : UInt64) (real : Option Nat)
  | deregMr (env : HookEnv) (mr : Nat) (real : Int)

section World

variable {ι : Type}

/-- The call of process `i`.  A deregistration reads the length in the MR. -/
def MemoryCall.hook (w : MemoryWorld ι) (i : ι) : MemoryCall → HookCall
  | .regMr env length real => .regMr env length real
  | .deregMr env mr real => .deregMr env mr (w.length (i, mr)) real

/-- The sum of the lengths of the live MRs. -/
def MemoryWorld.registered (w : MemoryWorld ι) : Nat :=
  ∑ mr ∈ w.live .mr, (w.length mr).toNat

/-- What a call created is what the real verb of a registration granted. -/
theorem created_of_hook {w : MemoryWorld ι} {i : ι} {call : MemoryCall} {mr : Nat}
    (h : ((call.hook w i).exec (w.view i)).1.created = some mr) :
    ∃ env length, call = .regMr env length (some mr) := by
  cases call with
  | regMr env length real => exact ⟨env, length, by rw [← ibvRegMr_object h]⟩
  | deregMr env old real => cases h

variable [DecidableEq ι]

/-- The lengths after a call with report `r`. -/
def lengthsAfter (length : ι × Nat → UInt64) (i : ι) (call : MemoryCall) (r : HookReport) :
    ι × Nat → UInt64 :=
  match call, r.created with
  | .regMr _ bytes _, some mr => Function.update length (i, mr) bytes
  | _, _ => length

def MemoryWorld.afterCall (w : MemoryWorld ι) (i : ι) (call : MemoryCall) : MemoryWorld ι :=
  { w.toHookWorld.afterCall i (call.hook w i) with
    length := lengthsAfter w.length i call ((call.hook w i).exec (w.view i)).1 }

/-- Process `i` of tenant `tenantId` makes a call. -/
def MemoryStep (tenantId : UInt32) (w : MemoryWorld ι) (label : ι × MemoryCall)
    (w' : MemoryWorld ι) : Prop :=
  Admissible tenantId w.toHookWorld label.1 (label.2.hook w label.1) ∧
    w' = w.afterCall label.1 label.2

/-- A registration that the real verb grants has length 0. -/
def Weightless : MemoryCall → Prop
  | .regMr _ length (some _) => length = 0
  | _ => True

/-! ## Runs -/

variable {tenantId : UInt32} {t : TenantIdx} {w w' : MemoryWorld ι} {label : ι × MemoryCall}

theorem MemoryStep.sameMemory (hne : tenantId ≠ 0) (ht : tenantIdx? tenantId = some t)
    (hact : (ledger w.tenant t).status = .active) (h : MemoryStep tenantId w label w') :
    SameMemory (ledger w.tenant t) (ledger w'.tenant t) := by
  obtain ⟨hadm, rfl⟩ := h
  exact (hadm.move hne ht hact).sameMemory

/-- The record never leaves zero, whatever is registered. -/
theorem memoryUsed_run {w₀ : MemoryWorld ι} {labels : List (ι × MemoryCall)}
    {quota : TenantQuota} (hfresh : FreshTenant tenantId t quota w₀.tenant)
    (hrun : Run (MemoryStep tenantId) w₀ labels w) :
    (ledger w.tenant t).status = .active ∧ (ledger w.tenant t).usage.memoryUsed = 0 := by
  refine Run.invariant (P := fun w : MemoryWorld ι => (ledger w.tenant t).status = .active ∧
    (ledger w.tenant t).usage.memoryUsed = 0) ?_ ?_ hrun
  · rw [hfresh.ledger_eq]
    exact ⟨rfl, rfl⟩
  · intro w₁ label w₂ hinv hstep
    have hsame := hstep.sameMemory hfresh.ne_zero hfresh.idx hinv.1
    exact ⟨hsame.status.trans hinv.1, hsame.memoryUsed.trans hinv.2⟩

/-- The MRs that exist after a call. -/
theorem live_afterCall (w : MemoryWorld ι) (i : ι) (call : MemoryCall) :
    (w.afterCall i call).live .mr =
      settleLive i ((call.hook w i).exec (w.view i)).1 (w.live .mr) := by
  cases call with
  | regMr env length real =>
      simp [MemoryWorld.afterCall, HookWorld.afterCall, MemoryCall.hook, HookCall.kind]
  | deregMr env mr real =>
      simp [MemoryWorld.afterCall, HookWorld.afterCall, MemoryCall.hook, HookCall.kind]

/-- Weightless calls keep all live MRs at length 0. -/
theorem MemoryStep.lengths (hweight : Weightless label.2) (h : MemoryStep tenantId w label w')
    (hzero : ∀ mr ∈ w.live .mr, w.length mr = 0) : ∀ mr ∈ w'.live .mr, w'.length mr = 0 := by
  obtain ⟨_, rfl⟩ := h
  obtain ⟨i, call⟩ := label
  have hlen : (w.afterCall i call).length =
      lengthsAfter w.length i call ((call.hook w i).exec (w.view i)).1 := rfl
  rw [live_afterCall, hlen]
  intro mr hmem
  cases hcreated : ((call.hook w i).exec (w.view i)).1.created with
  | none =>
      have hold := (mem_settleLive hmem).resolve_right (by simp [hcreated])
      simp only [lengthsAfter, hcreated]
      exact hzero mr hold
  | some new =>
      obtain ⟨env, length, rfl⟩ := created_of_hook hcreated
      have hbytes : length = 0 := hweight
      simp only [lengthsAfter, hcreated]
      simp only [settleLive, hcreated, Finset.mem_insert] at hmem
      by_cases hmr : mr = (i, new)
      · rw [hmr, Function.update_self, hbytes]
      · rw [Function.update_of_ne hmr]
        exact hzero mr (hmem.resolve_left hmr)

/-- **Memory is accounted for** in every run in which nothing of positive
length is registered. -/
theorem memory_within_quota {w₀ : MemoryWorld ι} {labels : List (ι × MemoryCall)}
    {quota : TenantQuota} (hfresh : FreshTenant tenantId t quota w₀.tenant)
    (hlive : w₀.live .mr = ∅)
    (hrun : Run (fun w label w' => Weightless label.2 ∧ MemoryStep tenantId w label w')
      w₀ labels w) :
    (w.tenant.tenants t).usage.memoryUsed.toNat = w.registered ∧
      w.registered ≤ (w.tenant.tenants t).quota.maxMemoryPerTenant.toNat := by
  have hused := (memoryUsed_run hfresh (hrun.mono fun _ _ _ h => h.2)).2
  have hzero : ∀ mr ∈ w.live .mr, w.length mr = 0 := by
    refine Run.invariant (P := fun w : MemoryWorld ι => ∀ mr ∈ w.live .mr, w.length mr = 0)
      ?_ ?_ hrun
    · rw [hlive]
      intro mr hmem
      exact absurd hmem (Finset.notMem_empty mr)
    · intro w₁ label w₂ hinv hstep
      exact hstep.2.lengths hstep.1 hinv
  have hsum : w.registered = 0 := by
    apply Finset.sum_eq_zero
    intro mr hmem
    rw [hzero mr hmem]
    rfl
  have hmem : (w.tenant.tenants t).usage.memoryUsed = 0 := hused
  rw [hmem, hsum]
  exact ⟨rfl, Nat.zero_le _⟩

end World

/-! ## Two registrations -/

/-- A quota of 100 bytes. -/
def hundredBytes : TenantQuota := { defaultQuota with maxMemoryPerTenant := 100 }

/-- Process 100 of tenant 1 with that quota, and no MR. -/
def memoryStart : MemoryWorld Unit := ⟨soloWorld hundredBytes, fun _ => 0⟩

/-- The process registers MR number `mr`. -/
def register (length : UInt64) (mr : Nat) : Unit × MemoryCall :=
  ((), .regMr quietEnv length (some mr))

/-- The process is ready to register, and `n` MRs are counted. -/
structure Registering (n : Int32) (w : MemoryWorld Unit) : Prop where
  settled : Settled quietEnv (w.procs ())
  pid : (w.procs ()).pid = 100
  enabled : rdmaInterceptIsEnabled (w.procs ()) = true
  found : (w.procs ()).realVerbs.regMr = true
  unlimited : (w.procs ()).intercept.config.enableMrRateLimit = false
  bound : tenantGetProcessTenant 100 w.tenant = some 1
  active : (ledger w.tenant 1).status = .active
  quota : (ledger w.tenant 1).quota = hundredBytes
  mrCount : (ledger w.tenant 1).usage.mrCount = n
  memoryUsed : (ledger w.tenant 1).usage.memoryUsed = 0

theorem memoryStart_registering : Registering 0 memoryStart where
  settled := settledProcess_settled 100
  pid := rfl
  enabled := rfl
  found := rfl
  unlimited := rfl
  bound := soloTenant_get (by decide) hundredBytes
  active := (soloTenant_record (by decide) hundredBytes).1
  quota := (soloTenant_record (by decide) hundredBytes).2.1
  mrCount := congrArg (·.mrCount) (soloTenant_record (by decide) hundredBytes).2.2
  memoryUsed := congrArg (·.memoryUsed) (soloTenant_record (by decide) hundredBytes).2.2

section Register

variable {n : Int32} {w : MemoryWorld Unit}

theorem Registering.tenant (h : Registering n w) :
    tenantGetProcessTenant (w.view ()).proc.pid (w.view ()).tenant = some 1 := by
  rw [show (w.view ()).proc.pid = 100 from h.pid]
  exact h.bound

/-- As long as no byte is recorded, 100 bytes are within the quota. -/
theorem Registering.check (h : Registering n w) (hn : n.toUInt32 < 1000) {length : UInt64}
    (hlength : length ≤ 100) : checkTenantMrLimitInline 1 length (w.view ()) = true := by
  have hact : (w.tenant.tenants 1).status = .active := h.active
  have hinfo : tenantGetInfo 1 (w.view ()).tenant = some (w.tenant.tenants 1) := by
    show tenantGetInfo 1 w.tenant = _
    simp [tenantGetInfo, tenantIdx?_one, hact]
  have hq : (w.tenant.tenants 1).quota = hundredBytes := h.quota
  have hc : (w.tenant.tenants 1).usage.mrCount = n := h.mrCount
  have hm : (w.tenant.tenants 1).usage.memoryUsed = 0 := h.memoryUsed
  have hinit : (w.view ()).proc.tenantInitialized = true := h.settled.tenantInitialized
  have hle : ¬(100 : UInt64) < 0 + length := by
    rw [UInt64.zero_add]
    exact UInt64.not_lt.mpr hlength
  have hlt : ¬(1000 : UInt32) ≤ n.toUInt32 := UInt32.not_le.mpr hn
  unfold checkTenantMrLimitInline
  rw [if_neg (by simp [hinit]), hinfo]
  simp [hq, hc, hm, hundredBytes, defaultQuota] at hle hlt ⊢
  exact ⟨hlt, hle⟩

/-- Counting one more MR keeps everything else. -/
theorem Registering.count (h : Registering n w) {w' : MemoryWorld Unit} (length : UInt64)
    (hproc : w'.procs () = countOwnMr length (w.procs ()))
    (htenant : w'.tenant = rewriteUsage 1 (countDelta .mr 1) w.tenant) :
    Registering (n + 1) w' := by
  have hledger := ledger_rewriteUsage tenantIdx?_one h.active (countDelta .mr 1)
  constructor
  · rw [hproc]
    exact ⟨rfl, h.settled.hooksInit, h.settled.tenantInitialized, h.settled.cachedPid⟩
  · rw [hproc]
    exact h.pid
  · rw [hproc]
    exact h.enabled
  · rw [hproc]
    exact h.found
  · rw [hproc]
    exact h.unlimited
  · rw [htenant, tenantGetProcessTenant_of_mappings (rewriteUsage_frame _ _ _)]
    exact h.bound
  · rw [htenant, hledger]
    exact h.active
  · rw [htenant, hledger]
    exact h.quota
  · rw [htenant, hledger, ← h.mrCount]
    rfl
  · rw [htenant, hledger]
    exact h.memoryUsed

/-- A registration of at most 100 bytes goes through and is not remembered. -/
theorem Registering.register (h : Registering n w) (hn : n.toUInt32 < 1000) (length : UInt64)
    (hlength : length ≤ 100) (mr : Nat) (hmr : ((), mr) ∉ w.live .mr) :
    ∃ w', MemoryStep 1 w (register length mr) w' ∧ Registering (n + 1) w' ∧
      w'.live .mr = insert ((), mr) (w.live .mr) ∧
      w'.length = Function.update w.length ((), mr) length := by
  have hset : Settled quietEnv (w.view ()).proc := h.settled
  have hreg := hset.ibvRegMr (v := w.view ()) h.enabled h.tenant (by decide) h.found h.unlimited
    (h.check hn hlength) mr
  have hexec : (HookCall.regMr quietEnv length (some mr)).exec (w.view ()) =
      (⟨some mr, none, true⟩, ⟨countOwnMr length (w.procs ()), w.shm,
        rewriteUsage 1 (countDelta .mr 1) w.tenant⟩) := by
    simp only [HookCall.exec, hreg]
    rfl
  refine ⟨w.afterCall () (.regMr quietEnv length (some mr)), ⟨⟨⟨?_, ?_⟩, ?_⟩, rfl⟩, ?_, ?_, ?_⟩
  · rw [hset.hooksInitOnce]
    exact h.enabled
  · rw [hset.hooksInitOnce, hset.getCurrentTenantId, h.tenant]
    rfl
  · intro mr' hmr'
    exact Option.some.inj hmr' ▸ hmr
  · apply h.count length
    · simp [MemoryWorld.afterCall, HookWorld.afterCall, MemoryCall.hook, hexec]
    · simp [MemoryWorld.afterCall, HookWorld.afterCall, MemoryCall.hook, hexec]
  · rw [live_afterCall]
    simp only [MemoryCall.hook, hexec, settleLive]
  · show lengthsAfter w.length () _ _ = _
    simp only [MemoryCall.hook, hexec, lengthsAfter]

end Register

/-- One MR of length 0 is accounted for. -/
theorem memory_of_empty_mr : ∃ w : MemoryWorld Unit,
    Run (fun w label w' => Weightless label.2 ∧ MemoryStep 1 w label w') memoryStart
      [register 0 7] w ∧
    (w.tenant.tenants 1).usage.memoryUsed.toNat = w.registered ∧
      w.registered ≤ (w.tenant.tenants 1).quota.maxMemoryPerTenant.toNat := by
  obtain ⟨w, hstep, _, _, _⟩ := memoryStart_registering.register (by decide) 0
    (by decide) 7 (Finset.notMem_empty _)
  have hguarded : Weightless (register 0 7).2 ∧ MemoryStep 1 memoryStart (register 0 7) w :=
    ⟨rfl, hstep⟩
  have hrun : Run (fun w label w' => Weightless label.2 ∧ MemoryStep 1 w label w') memoryStart
      [register 0 7] w := Run.start.snoc hguarded
  exact ⟨w, hrun, memory_within_quota (soloTenant_fresh (by decide) hundredBytes) rfl hrun⟩

/-- Two MRs of 60 bytes are registered under a quota of 100, and none of the
120 bytes is recorded. -/
theorem registrations_exceed_quota : ∃ w : MemoryWorld Unit,
    FreshTenant 1 1 hundredBytes memoryStart.tenant ∧ memoryStart.live .mr = ∅ ∧
      Run (MemoryStep 1) memoryStart [register 60 7, register 60 8] w ∧
      (w.tenant.tenants 1).quota.maxMemoryPerTenant = 100 ∧
      (w.tenant.tenants 1).usage.memoryUsed = 0 ∧ w.registered = 120 := by
  obtain ⟨w₁, hstep₁, hreg₁, hlive₁, hlen₁⟩ := memoryStart_registering.register (by decide) 60
    (by decide) 7 (Finset.notMem_empty _)
  have hstart : memoryStart.live .mr = ∅ := rfl
  rw [hstart] at hlive₁
  obtain ⟨w₂, hstep₂, hreg₂, hlive₂, hlen₂⟩ := hreg₁.register (by decide) 60
    (by decide) 8 (by rw [hlive₁]; decide)
  refine ⟨w₂, soloTenant_fresh (by decide) hundredBytes, rfl,
    (Run.start.snoc hstep₁).snoc hstep₂, ?_, hreg₂.memoryUsed, ?_⟩
  · have hquota : (w₂.tenant.tenants 1).quota = hundredBytes := hreg₂.quota
    rw [hquota]
    rfl
  · unfold MemoryWorld.registered
    rw [hlive₂, hlive₁, hlen₂, hlen₁]
    decide

end MtRdma.Ports.RdmaHooks
