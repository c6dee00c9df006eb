import MtRdma.Ports.ChargedTenant
import MtRdma.Ports.CreationPaths
import MtRdma.Ports.EbpfSync
import MtRdma.Ports.QpLedger
import MtRdma.Ports.TenantPidMap

/-!
# What a failed call leaves behind

A hook call fails because a check denies it or because the real verb does.
Most failing exits have changed nothing that is counted.  Two have: a QP
creation whose verb fails has taken a unit of the quota and takes it back in a
second step, and any first call of a process runs `shm_init`, which clears the
process table if the three totals are zero.
-/

namespace MtRdma.Ports.FailedCalls

open Verified
open Verified.MachineInt
open SharedMemory
open SharedMemoryTenant hiding tenantStep
open RdmaHooks
open HookPieces (SameAccounts)

/-! ## Traces -/

/-- A call that created and destroyed nothing. -/
def Failed (r : HookReport) : Prop := r.created = none ∧ r.destroyed = none

/-- The entries of the process table and the totals. -/
structure SameTable (s s' : SharedMemoryData) : Prop where
  globalStats : s'.globalStats = s.globalStats
  processStats : s'.processStats = s.processStats
  processPids : s'.processPids = s.processPids
  processStartTimes : s'.processStartTimes = s.processStartTimes

/-- The private counters, the process table, and the quota and usage records
of all tenants are as before. -/
structure NoTrace (v v' : View) : Prop where
  qpCount : v'.proc.intercept.qpCount = v.proc.intercept.qpCount
  mrCount : v'.proc.intercept.mrCount = v.proc.intercept.mrCount
  memoryUsed : v'.proc.intercept.memoryUsed = v.proc.intercept.memoryUsed
  table : SameTable v.shm v'.shm
  quota : ∀ t, (v'.tenant.tenants t).quota = (v.tenant.tenants t).quota
  usage : ∀ t, (v'.tenant.tenants t).usage = (v.tenant.tenants t).usage

/-- Nothing that is counted has moved since the call was entered. -/
structure Unmoved (w w' : View) : Prop where
  intercept : w'.proc.intercept = w.proc.intercept
  shm : w'.shm = w.shm
  ledger : ledger w'.tenant = ledger w.tenant

namespace Unmoved

theorem refl (w : View) : Unmoved w w := ⟨rfl, rfl, rfl⟩

theorem resolve (env : HookEnv) (w : View) : Unmoved w (getCurrentTenantId env w).2 where
  intercept := (SameAccounts.getCurrentTenantId env w).intercept
  shm := (SameAccounts.getCurrentTenantId env w).shm
  ledger := ledger_getCurrentTenantId env w

/-- The rate limiter counts operations, not objects. -/
theorem limit {w w' : View} (h : Unmoved w w') (env : HookEnv) :
    Unmoved w { w' with proc := (checkMrRateLimit env w'.proc).2 } where
  intercept := (SameAccounts.checkMrRateLimit env w').intercept.trans h.intercept
  shm := h.shm
  ledger := h.ledger

end Unmoved

/-! ## The hooks that take nothing in advance -/

section Hooks

variable {env : HookEnv} {v : View}

theorem createCounted_failed {kind : ResourceKind} {found : RealVerbs → Bool}
    {real : Option Nat} : (createCounted kind found env real v).1.object = none →
      Unmoved (hooksInitOnce env v) (createCounted kind found env real v).2 := by
  unfold createCounted
  simp only
  split
  · exact fun _ => .refl _
  · split
    · exact fun _ => .refl _
    · cases real with
      | none => exact fun _ => .refl _
      | some object => exact fun h => nomatch h

theorem destroyCounted_failed {kind : ResourceKind} {found : RealVerbs → Bool} {real : Int} :
    (destroyCounted kind found env real v).1.rc ≠ 0 →
      Unmoved (hooksInitOnce env v) (destroyCounted kind found env real v).2 := by
  unfold destroyCounted
  simp only
  split
  · exact fun _ => .refl _
  · split
    · exact fun _ => .refl _
    · split
      · exact fun h => absurd rfl h
      · exact fun _ => .refl _

theorem ibvDestroyQp_failed {real : Int} : (ibvDestroyQp env real v).1.rc ≠ 0 →
    Unmoved (hooksInitOnce env v) (ibvDestroyQp env real v).2 := by
  unfold ibvDestroyQp
  simp only
  split
  · exact fun _ => .refl _
  · split
    · exact fun _ => .refl _
    · split
      · exact fun h => absurd rfl h
      · exact fun _ => .refl _

theorem ibvRegMr_failed {length : UInt64} {real : Option Nat} :
    (ibvRegMr env length real v).1.object = none →
      Unmoved (hooksInitOnce env v) (ibvRegMr env length real v).2 := by
  have hresolved := Unmoved.resolve env (hooksInitOnce env v)
  have hcases := ibvRegMr_cases env length real v
  generalize ibvRegMr env length real v = result at hcases ⊢
  intro hnone
  cases hcases with
  | missing | passed => exact .refl _
  | overQuota => exact hresolved
  | overRate | refused => exact hresolved.limit env
  | registered => cases hnone

theorem ibvDeregMr_failed {length : UInt64} {real : Int} :
    (ibvDeregMr env length real v).1.rc ≠ 0 →
      Unmoved (hooksInitOnce env v) (ibvDeregMr env length real v).2 := by
  have hlimited := (Unmoved.refl (hooksInitOnce env v)).limit env
  have hcases := ibvDeregMr_cases env length real v
  generalize ibvDeregMr env length real v = result at hcases ⊢
  intro hfailed
  cases hcases with
  | missing | passed => exact .refl _
  | overRate | refused => exact hlimited
  | deregistered => exact absurd rfl hfailed

end Hooks

/-! ## A reservation that is taken back -/

/-- Taking back what was reserved restores a record exactly if neither of its
two counters was at the end of its range. -/
theorem rollbackQp_reserveQp_iff {u : TenantResourceUsage} (hcount : 0 ≤ u.qpCount.toInt) :
    rollbackQp (reserveQp u) = u ↔
      u.qpCount.toInt < 2 ^ 31 - 1 ∧ u.totalQpCreates.toNat < 2 ^ 64 - 1 := by
  have hrestore : rollbackQp (reserveQp u) = u ↔
      (if 0 < u.qpCount + 1 then u.qpCount + 1 - 1 else u.qpCount + 1) = u.qpCount ∧
        (if 0 < u.totalQpCreates + 1 then u.totalQpCreates + 1 - 1
          else u.totalQpCreates + 1) = u.totalQpCreates := by
    obtain ⟨qp, mr, cq, pd, memory, creates, destroys, regs, deregs⟩ := u
    simp [rollbackQp, reserveQp]
  rw [hrestore, guarded_sub_after_add_int32 hcount, guarded_sub_after_add_uint64]

/-- What a failed QP creation does: nothing, or it gives a unit back to the
tenant it has taken it from. -/
inductive CreateFailure (w : View) (tenantId : UInt32) (tookUnit : Prop) (w' : View) : Prop
  | quiet : ¬tookUnit → Unmoved w w' → CreateFailure w tenantId tookUnit w'
  | takenBack (t : TenantIdx) : tookUnit → tenantIdx? tenantId = some t →
      w'.proc.intercept = w.proc.intercept → w'.shm = w.shm →
      ledger w'.tenant = Function.update (ledger w.tenant) t
        (withUsage (ledger w.tenant t) (rollbackQp (reserveQp (ledger w.tenant t).usage))) →
      CreateFailure w tenantId tookUnit w'

/-- The tenant, if there is one, is ACTIVE and its QP count is not
negative. -/
def Sound (tenantId : UInt32) (s : TenantSharedMemory) : Prop :=
  tenantId ≠ 0 → ∀ t, tenantIdx? tenantId = some t →
    (ledger s t).status = .active ∧ 0 ≤ (ledger s t).usage.qpCount.toInt

section Creation

variable {env : HookEnv} {w : View}

theorem createForTenant_unbound {real : QpInitAttr → Option Nat} {attr : QpInitAttr}
    (hzero : (getCurrentTenantId env w).1 = 0)
    (hfailed : (createForTenant env real attr w).1.qp = none) :
    Unmoved w (createForTenant env real attr w).2 := by
  have hstep : tenantStep env w = (some (false, 0), (getCurrentTenantId env w).2) := by
    unfold tenantStep
    simp [hzero]
  unfold createForTenant createAndSettle at hfailed ⊢
  simp only [hstep] at hfailed ⊢
  split at hfailed
  · cases hfailed
  · exact .resolve env w

/-- The tenant step of a caller whose tenant is ACTIVE: it denies and changes
nothing, or it takes one unit. -/
theorem tenantStep_sound (hne : (getCurrentTenantId env w).1 ≠ 0)
    (hsound : Sound (getCurrentTenantId env w).1 w.tenant) :
    ((tenantStep env w).1 = none ∧ ledger (tenantStep env w).2.tenant = ledger w.tenant) ∨
      ∃ t, tenantIdx? (getCurrentTenantId env w).1 = some t ∧
        (tenantStep env w).1 = some (true, (getCurrentTenantId env w).1) ∧
        ledger (tenantStep env w).2.tenant = Function.update (ledger w.tenant) t
          (withUsage (ledger w.tenant t) (reserveQp (ledger w.tenant t).usage)) := by
  have hledger := ledger_getCurrentTenantId env w
  rw [tenantStep_bound hne]
  cases ht : tenantIdx? (getCurrentTenantId env w).1 with
  | none =>
      refine .inl ⟨?_, ?_⟩
      · simp [tenantTryAllocateQp, ht]
      · simpa [tenantTryAllocateQp, ht] using hledger
  | some t =>
      obtain ⟨hact, hcount⟩ := hsound hne t ht
      rw [← hledger] at hact hcount ⊢
      have hclamp : clampQp ((getCurrentTenantId env w).2.tenant.tenants t).usage =
          ((getCurrentTenantId env w).2.tenant.tenants t).usage := clampQp_of_nonneg hcount
      rw [tenantTryAllocateQp_active ht hact, hclamp]
      split
      · refine .inl ⟨rfl, ?_⟩
        rw [ledger_setUsage]
        exact Function.update_eq_self t _
      · exact .inr ⟨t, rfl, rfl, ledger_setUsage _⟩

theorem createForTenant_failed {real : QpInitAttr → Option Nat} {attr : QpInitAttr}
    (hsound : Sound (getCurrentTenantId env w).1 w.tenant)
    (hfailed : (createForTenant env real attr w).1.qp = none) :
    CreateFailure w (getCurrentTenantId env w).1
      ((getCurrentTenantId env w).1 ≠ 0 ∧ (tenantStep env w).1 ≠ none)
      (createForTenant env real attr w).2 := by
  by_cases hne : (getCurrentTenantId env w).1 = 0
  · exact .quiet (fun h => h.1 hne) (createForTenant_unbound hne hfailed)
  · have haccounts := SameAccounts.tenantStep env w
    unfold createForTenant at hfailed ⊢
    rcases tenantStep_sound hne hsound with ⟨hdenied, hledger⟩ | ⟨t, ht, htaken, hledger⟩
    · simp only [hdenied] at hfailed ⊢
      exact .quiet (fun h => h.2 rfl) ⟨haccounts.intercept, haccounts.shm, hledger⟩
    · simp only [htaken] at hfailed ⊢
      unfold createAndSettle at hfailed ⊢
      simp only [if_true] at hfailed ⊢
      split at hfailed
      · cases hfailed
      · have hact : ((tenantStep env w).2.tenant.tenants t).status = .active := by
          have hmoment := congrArg Ledger.status (congrFun hledger t)
          rw [Function.update_self] at hmoment
          exact hmoment.trans (hsound hne t ht).1
        refine .takenBack t ⟨hne, nofun⟩ ht haccounts.intercept haccounts.shm ?_
        rw [ledgers_rewriteUsage ht hact, hledger, Function.update_self, Function.update_idem]
        rfl

/-- A QP creation goes on to the verb with a unit of a quota: interception is on,
the verb is there, the restrictions permit the creation, and the tenant step
finds a tenant and a unit. -/
structure Reserves (env : HookEnv) (found permitted : Bool) (w : View) : Prop where
  enabled : rdmaInterceptIsEnabled w.proc = true
  found : found = true
  permitted : permitted = true
  tenant : (getCurrentTenantId env w).1 ≠ 0
  unit : (tenantStep env w).1 ≠ none

theorem creation_failed {verb : Option (QpInitAttr → Option Nat)} {permitted : Bool}
    {attr : QpInitAttr} {result : CreateQpResult × View}
    (hsound : Sound (getCurrentTenantId env w).1 w.tenant)
    (hcases : CreationOutcome env verb permitted attr w result) (hfailed : result.1.qp = none) :
    CreateFailure w (getCurrentTenantId env w).1 (Reserves env verb.isSome permitted w)
      result.2 := by
  cases hcases with
  | missing hverb => exact .quiet (fun h => by simpa [hverb] using h.found) (.refl _)
  | passed _ hoff => exact .quiet (fun h => by simpa [hoff] using h.enabled) (.refl _)
  | refused hcheck => exact .quiet (fun h => by simpa [hcheck] using h.permitted) (.refl _)
  | checked hverb hon hcheck =>
      have hiff : Reserves env verb.isSome permitted w ↔
          (getCurrentTenantId env w).1 ≠ 0 ∧ (tenantStep env w).1 ≠ none :=
        ⟨fun h => ⟨h.tenant, h.unit⟩, fun h => ⟨hon, by rw [hverb]; rfl, hcheck, h.1, h.2⟩⟩
      rw [hiff]
      exact createForTenant_failed hsound hfailed

end Creation

/-! ## Every call -/

/-- The call takes a unit of a QP quota, which it has to give back if it fails. -/
def TakesUnit (v : View) : HookCall → Prop
  | .createQp env _ attr =>
      Reserves env (hooksInitOnce env v).proc.realVerbs.createQp
        (checkQpCreationRestrictions attr (hooksInitOnce env v)) (hooksInitOnce env v)
  | .createQpEx env _ context attr =>
      Reserves env (findOriginalCreateQpEx context v.proc).isSome
        (checkQpCreationRestrictionsExtended attr v) v
  | _ => False

theorem TakesUnit.resolved_ne {call : HookCall} {v : View} (h : TakesUnit v call) :
    call.resolved v ≠ 0 := by
  cases call with
  | createQp | createQpEx => exact Reserves.tenant h
  | _ => cases h

theorem rc_of_failed {object : Nat} {r : DestroyResult} (h : Failed (reportDestroy object r)) :
    r.rc ≠ 0 := by
  intro hrc
  simp [Failed, reportDestroy, hrc] at h

/-- A failed call, from the state in which its initialization is over. -/
theorem exec_failed {call : HookCall} {v : View}
    (hsound : Sound (call.resolved v) (call.entered v).tenant)
    (hfailed : Failed (call.exec v).1) :
    CreateFailure (call.entered v) (call.resolved v) (TakesUnit v call) (call.exec v).2 := by
  cases call with
  | createQp env real attr =>
      have hfailure := creation_failed hsound (ibvCreateQp_cases env real attr v) hfailed.1
      have hfound : (if (hooksInitOnce env v).proc.realVerbs.createQp then some real
          else none).isSome = (hooksInitOnce env v).proc.realVerbs.createQp := by
        split <;> simp_all
      rwa [hfound] at hfailure
  | createQpEx env real context attr =>
      have hfailure := creation_failed hsound (createQpExWrapper_cases ..) hfailed.1
      rwa [Option.isSome_map] at hfailure
  | destroyQp env qp real =>
      exact .quiet id (ibvDestroyQp_failed (rc_of_failed hfailed))
  | regMr env length real =>
      exact .quiet id (ibvRegMr_failed hfailed.1)
  | deregMr env mr length real =>
      exact .quiet id (ibvDeregMr_failed (rc_of_failed hfailed))
  | createCq env real =>
      exact .quiet id (createCounted_failed hfailed.1)
  | destroyCq env cq real =>
      exact .quiet id (destroyCounted_failed (rc_of_failed hfailed))
  | allocPd env real =>
      exact .quiet id (createCounted_failed hfailed.1)
  | deallocPd env pd real =>
      exact .quiet id (destroyCounted_failed (rc_of_failed hfailed))

/-! ## The once-only initialization -/

/-- No entry is in use, and no totals are left. -/
structure TableEmpty (s : SharedMemoryData) : Prop where
  processStats : s.processStats = fun _ => .zero
  processPids : s.processPids = fun _ => 0
  processStartTimes : s.processStartTimes = fun _ => 0

/-- The initialization that the call may run leaves the table as it is. -/
def InitKeepsTable (call : HookCall) (v : View) : Prop :=
  (∃ env real context attr, call = .createQpEx env real context attr) ∨
    v.proc.hooksInit = true ∨ call.env.libibverbs = none ∨ call.env.shmInit = false ∨
    v.shm.globalStats ≠ .zero ∨ TableEmpty v.shm

theorem sameTable_shmInit_iff (s : SharedMemoryData) :
    SameTable s (shmInit s) ↔ s.globalStats ≠ .zero ∨ TableEmpty s := by
  have htotals : (s.globalStats.qpCount = 0 ∧ s.globalStats.mrCount = 0 ∧
      s.globalStats.memoryUsed = 0) ↔ s.globalStats = .zero := by
    obtain ⟨qp, mr, memory⟩ := s.globalStats
    simp [ResourceUsage.zero]
  unfold shmInit
  by_cases hzero : s.globalStats = .zero
  · rw [if_pos (htotals.mpr hzero)]
    constructor
    · intro h
      exact .inr ⟨h.processStats.symm, h.processPids.symm, h.processStartTimes.symm⟩
    · rintro (hne | hempty)
      · exact absurd hzero hne
      · exact ⟨hzero.symm, hempty.processStats.symm, hempty.processPids.symm,
          hempty.processStartTimes.symm⟩
  · rw [if_neg (mt htotals.mp hzero)]
    exact iff_of_true ⟨rfl, rfl, rfl, rfl⟩ (.inl hzero)

theorem SameTable.refl (s : SharedMemoryData) : SameTable s s := ⟨rfl, rfl, rfl, rfl⟩

theorem sameTable_hooksInitOnce_iff (env : HookEnv) (v : View) :
    SameTable v.shm (hooksInitOnce env v).shm ↔
      v.proc.hooksInit = true ∨ env.libibverbs = none ∨ env.shmInit = false ∨
        v.shm.globalStats ≠ .zero ∨ TableEmpty v.shm := by
  unfold hooksInitOnce
  split
  · rename_i hdone
    exact iff_of_true (.refl _) (.inl hdone)
  · rename_i hfirst
    unfold initFunctionPointers
    cases hlib : env.libibverbs with
    | none => exact iff_of_true (.refl _) (.inr (.inl rfl))
    | some symbols =>
        cases hshm : env.shmInit with
        | false => exact iff_of_true (.refl _) (.inr (.inr (.inl rfl)))
        | true =>
            simp only [if_true, hfirst, reduceCtorEq, false_or]
            exact sameTable_shmInit_iff v.shm

theorem sameTable_entered_iff (call : HookCall) (v : View) :
    SameTable v.shm (call.entered v).shm ↔ InitKeepsTable call v := by
  unfold InitKeepsTable
  cases call with
  | createQpEx env real context attr =>
      exact iff_of_true (.refl _) (.inl ⟨env, real, context, attr, rfl⟩)
  | _ =>
      rw [or_iff_right (by rintro ⟨_, _, _, _, h⟩; cases h)]
      exact sameTable_hooksInitOnce_iff _ v

/-- Initialization does not count. -/
theorem hooksInitOnce_counters (env : HookEnv) (v : View) :
    (hooksInitOnce env v).proc.intercept.qpCount = v.proc.intercept.qpCount ∧
      (hooksInitOnce env v).proc.intercept.mrCount = v.proc.intercept.mrCount ∧
      (hooksInitOnce env v).proc.intercept.memoryUsed = v.proc.intercept.memoryUsed := by
  have hinit : (initIfNeeded env v.proc.intercept).qpCount = v.proc.intercept.qpCount ∧
      (initIfNeeded env v.proc.intercept).mrCount = v.proc.intercept.mrCount ∧
      (initIfNeeded env v.proc.intercept).memoryUsed = v.proc.intercept.memoryUsed := by
    unfold initIfNeeded
    split
    · exact ⟨rfl, rfl, rfl⟩
    · split <;> exact ⟨rfl, rfl, rfl⟩
  unfold hooksInitOnce
  split
  · exact ⟨rfl, rfl, rfl⟩
  · unfold initFunctionPointers
    simp only
    split <;> exact hinit

theorem entered_counters (call : HookCall) (v : View) :
    (call.entered v).proc.intercept.qpCount = v.proc.intercept.qpCount ∧
      (call.entered v).proc.intercept.mrCount = v.proc.intercept.mrCount ∧
      (call.entered v).proc.intercept.memoryUsed = v.proc.intercept.memoryUsed := by
  cases call with
  | createQpEx env real context attr => exact ⟨rfl, rfl, rfl⟩
  | _ => exact hooksInitOnce_counters _ v

theorem ledger_entered (call : HookCall) (v : View) :
    ledger (call.entered v).tenant = ledger v.tenant := by
  cases call with
  | createQpEx env real context attr => rfl
  | _ => exact ledger_hooksInitOnce _ v

/-! ## When a failed call leaves no trace -/

/-- The two counters that a reservation moves have room for it. -/
def Restorable (u : TenantResourceUsage) : Prop :=
  u.qpCount.toInt < 2 ^ 31 - 1 ∧ u.totalQpCreates.toNat < 2 ^ 64 - 1

theorem Sound.of_ledger {tenantId : UInt32} {s s' : TenantSharedMemory} (h : Sound tenantId s)
    (hledger : ledger s' = ledger s) : Sound tenantId s' := by
  intro hne t ht
  rw [hledger]
  exact h hne t ht

/-- Past the initialization, a trace is a moved table or a moved ledger. -/
theorem noTrace_iff {call : HookCall} {v v' : View}
    (hintercept : v'.proc.intercept = (call.entered v).proc.intercept)
    (hshm : v'.shm = (call.entered v).shm) :
    NoTrace v v' ↔ InitKeepsTable call v ∧
      ∀ t, (ledger v'.tenant t).quota = (ledger v.tenant t).quota ∧
        (ledger v'.tenant t).usage = (ledger v.tenant t).usage := by
  obtain ⟨hqp, hmr, hmemory⟩ := entered_counters call v
  rw [← sameTable_entered_iff, ← hshm]
  rw [← hintercept] at hqp hmr hmemory
  constructor
  · intro h
    exact ⟨h.table, fun t => ⟨h.quota t, h.usage t⟩⟩
  · rintro ⟨htable, hledger⟩
    exact ⟨hqp, hmr, hmemory, htable, fun t => (hledger t).1, fun t => (hledger t).2⟩

/-- A failed call of a process whose tenant is ACTIVE with a QP count that is
not negative leaves no trace exactly if the initialization it may run keeps the
process table, and a unit that it gives back was taken from counters that had
room for it. -/
theorem failed_call_noTrace_iff {call : HookCall} {v : View}
    (hsound : Sound (call.resolved v) v.tenant) (hfailed : Failed (call.exec v).1) :
    NoTrace v (call.exec v).2 ↔
      InitKeepsTable call v ∧
        (TakesUnit v call → ∀ t, tenantIdx? (call.resolved v) = some t →
          Restorable (v.tenant.tenants t).usage) := by
  have hentered := ledger_entered call v
  rcases exec_failed (hsound.of_ledger hentered) hfailed with
    ⟨hnot, hquiet⟩ | ⟨t, htook, ht, hintercept, hshm, hledger⟩
  · rw [noTrace_iff hquiet.intercept hquiet.shm]
    refine and_congr_right fun _ => iff_of_true (fun t => ?_) (fun htook => absurd htook hnot)
    rw [hquiet.ledger, hentered]
    exact ⟨rfl, rfl⟩
  · rw [noTrace_iff hintercept hshm, hledger, hentered]
    refine and_congr_right fun _ => ?_
    have hcount : 0 ≤ (ledger v.tenant t).usage.qpCount.toInt := (hsound htook.resolved_ne t ht).2
    have hrestore := rollbackQp_reserveQp_iff hcount
    constructor
    · intro h _ t' ht'
      obtain rfl := Option.some.inj (ht.symm.trans ht')
      have husage := (h t).2
      rw [Function.update_self] at husage
      exact hrestore.mp husage
    · intro h t'
      by_cases htt : t' = t
      · subst htt
        rw [Function.update_self]
        exact ⟨rfl, hrestore.mpr (h htook t' ht)⟩
      · rw [Function.update_of_ne htt]
        exact ⟨rfl, rfl⟩

/-! ## A table cleared by a call that fails -/

/-- The worlds that hook calls, calls that manage tenants and passes of the
eBPF sync lead to. -/
inductive Reachable {ι : Type} [DecidableEq ι] : HookWorld ι → Prop
  | start (pids : ι → Int) : Reachable
      ⟨fun i => Process.start (pids i), SharedMemory.zeroed, SharedMemoryTenant.zeroed, fun _ => ∅⟩
  | hook {w : HookWorld ι} (i : ι) (call : HookCall) : Reachable w → Reachable (w.afterCall i call)
  | manage {w : HookWorld ι} (op : TenantOp) : Reachable w →
      Reachable { w with tenant := (tenantApply w.tenant op).2 }
  | sync {w : HookWorld ι} (start : Int → UInt64) (maps : EbpfSync.EbpfMaps) : Reachable w →
      Reachable { w with shm := EbpfSync.syncEbpfDataToSharedMemory start maps w.shm }

/-- The maps know process 200, which has no objects at the moment. -/
def idleMaps : EbpfSync.EbpfMaps := EbpfSync.readableMaps .zero [(200, .zero)]

/-- The table after a pass over these maps. -/
def idleTable : SharedMemoryData :=
  EbpfSync.syncEbpfDataToSharedMemory (fun _ => 7) idleMaps SharedMemory.zeroed

theorem idleTable_eq : idleTable =
    writeSlot 0 200 7 .zero (shmUpdateGlobalResources .zero SharedMemory.zeroed) := by
  have hpids : (shmUpdateGlobalResources .zero SharedMemory.zeroed).processPids =
      fun _ => (0 : Int) := rfl
  have hslot : slotFor 200 (shmUpdateGlobalResources .zero SharedMemory.zeroed) = some 0 := by
    unfold slotFor
    rw [if_neg (by decide), hpids, (SlotScan.lookup_eq_none_iff _ _).mpr fun _ => by decide,
      SlotScan.lookup_first rfl]
    rfl
  have hupdate : idleTable = (shmUpdateProcessResources 200 .zero 7
      (shmUpdateGlobalResources .zero SharedMemory.zeroed)).2 :=
    EbpfSync.sync_readableMaps _ _ _ _
  rw [hupdate, shmUpdateProcessResources_eq, hslot]
  rfl

theorem idleTable_pid : idleTable.processPids 0 = 200 := by
  rw [idleTable_eq]
  simp [writeSlot]

theorem idleTable_totals : idleTable.globalStats = .zero := by
  rw [idleTable_eq]
  rfl

/-- Process 100 of tenant 1 has not called any hook yet. -/
def newcomerWorld : HookWorld Unit :=
  ⟨fun _ => Process.start 100, idleTable, soloTenant 100 defaultQuota, fun _ => ∅⟩

theorem newcomerWorld_reachable : Reachable newcomerWorld :=
  (((Reachable.start fun _ : Unit => 100).manage (.create 1 none (some defaultQuota))).manage
    (.bind ⟨100, by decide⟩ 1)).sync (fun _ => 7) idleMaps

/-- Everything the initialization asks for is there. -/
def readyEnv : HookEnv :=
  { quietEnv with
    interceptInit := some (.default, true)
    libibverbs := some ⟨true, true, true, true, true, true, true, true, true⟩
    shmInit := true
    tenantShmInit := true }

/-- `ibv_create_cq`, for which the real verb fails. -/
def failingCall : HookCall := .createCq readyEnv none

theorem newcomer_resolved : failingCall.resolved (newcomerWorld.view ()) = 1 := by
  have hsettled : Settled readyEnv (failingCall.entered (newcomerWorld.view ())).proc :=
    ⟨rfl, rfl, rfl, rfl⟩
  have hget : tenantGetProcessTenant (failingCall.entered (newcomerWorld.view ())).proc.pid
      (failingCall.entered (newcomerWorld.view ())).tenant = some 1 :=
    soloTenant_get (by decide) defaultQuota
  exact congrArg Prod.fst (hsettled.resolved hget)

theorem soloTenant_sound : Sound 1 (soloTenant 100 defaultQuota) := by
  have hledger := (soloTenant_fresh (by decide : (100 : Int) ≠ 0) defaultQuota).ledger_eq
  intro _ t ht
  obtain rfl := Option.some.inj (tenantIdx?_one.symm.trans ht)
  rw [hledger]
  exact ⟨rfl, by decide⟩

/-- The first call of process 100 fails, and the entry of process 200 is
gone. -/
theorem failed_first_call_clears_table :
    Reachable newcomerWorld ∧
      Sound (failingCall.resolved (newcomerWorld.view ())) newcomerWorld.tenant ∧
      Failed (failingCall.exec (newcomerWorld.view ())).1 ∧
      newcomerWorld.shm.processPids 0 = 200 ∧
      (failingCall.exec (newcomerWorld.view ())).2.shm.processPids 0 = 0 ∧
      ¬NoTrace (newcomerWorld.view ()) (failingCall.exec (newcomerWorld.view ())).2 := by
  have hshm : (failingCall.exec (newcomerWorld.view ())).2.shm = shmInit idleTable := rfl
  have hcleared : (shmInit idleTable).processPids 0 = 0 := by
    unfold shmInit
    rw [idleTable_totals]
    rfl
  refine ⟨newcomerWorld_reachable, ?_, ⟨rfl, rfl⟩, idleTable_pid, by rw [hshm, hcleared], ?_⟩
  · rw [newcomer_resolved]
    exact soloTenant_sound
  · intro h
    have hsame := congrFun h.table.processPids 0
    rw [hshm, hcleared, show (newcomerWorld.view ()).shm = idleTable from rfl,
      idleTable_pid] at hsame
    cases hsame

/-- A creation whose verb fails, by an initialized process of a tenant without
QPs. -/
theorem failed_creation_noTrace :
    NoTrace ((soloWorld defaultQuota).view ())
      ((HookCall.createQp quietEnv (fun _ => none) ⟨.rc, 1, 1⟩).exec
        ((soloWorld defaultQuota).view ())).2 := by
  have hsettled : Settled quietEnv ((soloWorld defaultQuota).view ()).proc :=
    settledProcess_settled 100
  have hresolved : (HookCall.createQp quietEnv (fun _ => none) ⟨.rc, 1, 1⟩).resolved
      ((soloWorld defaultQuota).view ()) = 1 := by
    show (getCurrentTenantId quietEnv (hooksInitOnce quietEnv _)).1 = 1
    rw [hsettled.hooksInitOnce]
    exact congrArg Prod.fst (hsettled.resolved (soloTenant_get (by decide) defaultQuota))
  have hfailed : Failed ((HookCall.createQp quietEnv (fun _ => none) ⟨.rc, 1, 1⟩).exec
      ((soloWorld defaultQuota).view ())).1 := by
    refine ⟨Option.eq_none_iff_forall_ne_some.mpr fun qp hqp => ?_, rfl⟩
    obtain ⟨_, hreal⟩ := ibvCreateQp_qp hqp
    cases hreal
  refine (failed_call_noTrace_iff (by rw [hresolved]; exact soloTenant_sound) hfailed).mpr
    ⟨.inr (.inl rfl), fun _ t ht => ?_⟩
  rw [hresolved] at ht
  obtain rfl := Option.some.inj (tenantIdx?_one.symm.trans ht)
  show Restorable ((soloTenant 100 defaultQuota).tenants 1).usage
  rw [(soloTenant_record (by decide) defaultQuota).2.2]
  exact ⟨by decide, by decide⟩

end MtRdma.Ports.FailedCalls
