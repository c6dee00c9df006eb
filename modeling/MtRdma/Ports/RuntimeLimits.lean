import MtRdma.Verified.Runs
import MtRdma.Ports.ChargedTenant
import MtRdma.Ports.DynamicPolicy
import MtRdma.Ports.QpPublication

/-!
# Limits stored at run time

The collector and the policy manager store a global QP limit in the shared
segment.  Neither admission check reads it: both compare the total with
`max_global_qp` of the calling process's own configuration, which is loaded
once.  A stored limit therefore only binds the processes whose own limit is at
least as strict.

The runs below contain every way a limit is stored, the start and fork of
processes, all counting hooks, and whatever else happens to the segments.
-/

namespace MtRdma.Ports.RuntimeLimits

open Verified.MachineInt
open Verified.Runs
open SharedMemory
open SharedMemoryTenant (TenantSharedMemory)
open RdmaHooks
open HookPieces
open DynamicPolicy
open HookCounters (plainProcess)
open QpPublication

/-! ## Runs -/

/-- The two segments, the processes, the policy manager, and the global QP
limit that was stored last, if any was. -/
structure LimitWorld where
  shm : SharedMemoryData
  tenant : TenantSharedMemory
  procs : Int → Option Process
  manager : PolicyManager
  stored : Option UInt32

def LimitWorld.view (w : LimitWorld) (p : Process) : View := ⟨p, w.shm, w.tenant⟩

/-- `collect` is everything else that writes to the segments, the collector's
own work above all. -/
inductive LimitEvent where
  | start (pid : Int)
  | fork (parent child : Int)
  | hook (pid : Int) (call : HookCall)
  | store (writer : LimitWriter)
  | collect (shm : SharedMemoryData) (tenant : TenantSharedMemory)

/-- The world after a hook call of process `p`. -/
def LimitWorld.afterHook (w : LimitWorld) (pid : Int) (p : Process) (call : HookCall) :
    LimitWorld :=
  let v := (call.exec (w.view p)).2
  { w with shm := v.shm, tenant := v.tenant, procs := Function.update w.procs pid (some v.proc) }

/-- The world after a writer has run. -/
def LimitWorld.afterStore (w : LimitWorld) (writer : LimitWriter) : LimitWorld :=
  let r := writer.run w.manager w.shm
  { w with shm := r.shm, manager := r.manager, stored := r.stored <|> w.stored }

inductive LimitStep (w : LimitWorld) : LimitEvent → LimitWorld → Prop
  | start {pid : Int} : w.procs pid = none →
      LimitStep w (.start pid)
        { w with procs := Function.update w.procs pid (some (Process.start pid)) }
  | fork {parent child : Int} {p : Process} : w.procs parent = some p → w.procs child = none →
      LimitStep w (.fork parent child)
        { w with procs := Function.update w.procs child (some { p with pid := child }) }
  | hook {pid : Int} {call : HookCall} {p : Process} : w.procs pid = some p →
      LimitStep w (.hook pid call) (w.afterHook pid p call)
  | store {writer : LimitWriter} : LimitStep w (.store writer) (w.afterStore writer)
  | collect {shm : SharedMemoryData} {tenant : TenantSharedMemory} :
      LimitStep w (.collect shm tenant) { w with shm := shm, tenant := tenant }

/-! ## Denied creations -/

/-- No QP, and the provider was not asked. -/
def Denied (r : CreateQpResult) : Prop := r.qp = none ∧ r.invoked = none

/-- An attached process that controls its QPs. -/
structure ControlsQps (p : Process) : Prop where
  hooksInit : p.hooksInit = true
  shmMapped : p.shmMapped = true
  control : p.intercept.config.enableQpControl = true

/-- Once the total has reached the limit stored last, both creation paths deny
every request of every attached process that controls its QPs. -/
def Enforced (w : LimitWorld) : Prop :=
  ∀ q, w.stored = some q → (q.toNat : Int) ≤ w.shm.globalStats.qpCount.toInt →
    ∀ pid p, w.procs pid = some p → ControlsQps p → ∀ env attr,
      (∀ real, Denied (ibvCreateQp env real attr (w.view p)).1) ∧
      ∀ real context, Denied (createQpExWrapper env real context attr (w.view p)).1

/-- The configuration of the process is at least as strict as the limit. -/
def Binds (q : UInt32) (p : Process) : Prop :=
  p.hooksInit = true → p.intercept.config.enableQpControl = true →
    rdmaInterceptIsEnabled p = true ∧ p.intercept.config.maxGlobalQp ≤ q

section Checks

variable {q : UInt32} {v : View}

/-- A total at the limit is at every stricter limit, also in the unsigned
comparison of the checks. -/
theorem globalCheck_eq_false (hcontrols : ControlsQps v.proc)
    (hown : v.proc.intercept.config.maxGlobalQp ≤ q)
    (hfull : (q.toNat : Int) ≤ v.shm.globalStats.qpCount.toInt) : globalCheck v = false := by
  have hcast := toNat_toUInt32 (x := v.shm.globalStats.qpCount) (by omega)
  have hle : v.proc.intercept.config.maxGlobalQp ≤ v.shm.globalStats.qpCount.toUInt32 := by
    rw [UInt32.le_iff_toNat_le] at hown ⊢
    omega
  rw [globalCheck_eq hcontrols.control hcontrols.shmMapped, decide_eq_false_iff_not, UInt32.not_lt]
  exact hle

theorem creation_denied {env : HookEnv} {verb : Option (QpInitAttr → Option Nat)}
    {own : Bool} {attr : QpInitAttr} {result : CreateQpResult × View}
    (hcontrols : ControlsQps v.proc) (hbinds : Binds q v.proc)
    (hfull : (q.toNat : Int) ≤ v.shm.globalStats.qpCount.toInt)
    (hcases : CreationOutcome env verb (own && globalCheck v) attr v result) :
    Denied result.1 := by
  obtain ⟨henabled, hown⟩ := hbinds hcontrols.hooksInit hcontrols.control
  rw [globalCheck_eq_false hcontrols hown hfull, Bool.and_false] at hcases
  cases hcases with
  | missing | refused => exact ⟨rfl, rfl⟩
  | passed _ hoff => simp [henabled] at hoff
  | checked _ _ hcheck => cases hcheck

end Checks

/-! ## Hooks keep the configuration -/

section Setup

variable {env : HookEnv} {v : View}

theorem createForTenant_setup (real : QpInitAttr → Option Nat) (attr : QpInitAttr) :
    SameSetup v.proc (createForTenant env real attr v).2.proc := by
  have hstep := (SameAccounts.tenantStep env v).setup
  have hcases := createForTenant_cases env real attr v
  generalize createForTenant env real attr v = result at hcases ⊢
  refine hstep.trans ?_
  cases hcases with
  | denied => exact .refl _
  | created =>
      unfold publish
      simp only
      split <;> exact ⟨rfl, rfl, rfl, rfl, rfl, rfl⟩
  | failed => split <;> exact ⟨rfl, rfl, rfl, rfl, rfl, rfl⟩

/-- Resolving the tenant and counting for it. -/
theorem count_setup {p : Process} (kind : ResourceKind) (delta : Int32)
    (h : SameSetup p v.proc) :
    SameSetup p (updateTenantResourceCount (getCurrentTenantId env v).1 kind delta
      (getCurrentTenantId env v).2).proc :=
  (h.trans (SameAccounts.getCurrentTenantId env v).setup).trans
    (SameAccounts.updateTenantResourceCount _ _ _ _).setup

theorem createCounted_setup (kind : ResourceKind) (found : RealVerbs → Bool)
    (real : Option Nat) :
    SameSetup (hooksInitOnce env v).proc (createCounted kind found env real v).2.proc := by
  unfold createCounted
  simp only
  split
  · exact .refl _
  · split
    · exact .refl _
    · cases real with
      | none => exact .refl _
      | some object => exact count_setup kind 1 (.refl _)

theorem destroyCounted_setup (kind : ResourceKind) (found : RealVerbs → Bool) (real : Int) :
    SameSetup (hooksInitOnce env v).proc (destroyCounted kind found env real v).2.proc := by
  unfold destroyCounted
  simp only
  split
  · exact .refl _
  · split
    · exact .refl _
    · split
      · exact count_setup kind (-1) (.refl _)
      · exact .refl _

theorem ibvDestroyQp_setup (real : Int) :
    SameSetup (hooksInitOnce env v).proc (ibvDestroyQp env real v).2.proc := by
  unfold ibvDestroyQp
  simp only
  split
  · exact .refl _
  · split
    · exact .refl _
    · split
      · exact count_setup .qp (-1) ⟨rfl, rfl, rfl, rfl, rfl, rfl⟩
      · exact .refl _

theorem ibvRegMr_setup (length : UInt64) (real : Option Nat) :
    SameSetup (hooksInitOnce env v).proc (ibvRegMr env length real v).2.proc := by
  have hcases := ibvRegMr_cases env length real v
  generalize ibvRegMr env length real v = result at hcases ⊢
  generalize hooksInitOnce env v = w at hcases ⊢
  have hresolved := (SameAccounts.getCurrentTenantId env w).setup
  have hlimited := hresolved.trans
    (SameAccounts.checkMrRateLimit env (getCurrentTenantId env w).2).setup
  cases hcases with
  | missing | passed => exact .refl _
  | overQuota => exact hresolved
  | overRate | refused => exact hlimited
  | registered =>
      have hcounted : SameSetup w.proc
          (countOwnMr length (checkMrRateLimit env (getCurrentTenantId env w).2.proc).2) :=
        hlimited.trans ⟨rfl, rfl, rfl, rfl, rfl, rfl⟩
      exact hcounted.trans (SameAccounts.updateTenantResourceCount _ .mr 1
        { (getCurrentTenantId env w).2 with proc := countOwnMr length _ }).setup

theorem ibvDeregMr_setup (length : UInt64) (real : Int) :
    SameSetup (hooksInitOnce env v).proc (ibvDeregMr env length real v).2.proc := by
  have hcases := ibvDeregMr_cases env length real v
  generalize ibvDeregMr env length real v = result at hcases ⊢
  generalize hooksInitOnce env v = w at hcases ⊢
  have hlimited := (SameAccounts.checkMrRateLimit env w).setup
  cases hcases with
  | missing | passed => exact .refl _
  | overRate | refused => exact hlimited
  | deregistered u _ hu =>
      subst hu
      exact count_setup .mr (-1) (hlimited.trans ⟨rfl, rfl, rfl, rfl, rfl, rfl⟩)

theorem creation_setup {verb : Option (QpInitAttr → Option Nat)} {permitted : Bool}
    {attr : QpInitAttr} {result : CreateQpResult × View}
    (hcases : CreationOutcome env verb permitted attr v result) :
    SameSetup v.proc result.2.proc := by
  cases hcases with
  | missing | passed | refused => exact .refl _
  | checked => exact createForTenant_setup _ attr

/-- Past the once-only initialization no hook touches the configuration. -/
theorem exec_setup (call : HookCall) (v : View) :
    SameSetup (call.entered v).proc (call.exec v).2.proc := by
  cases call with
  | createQp env real attr => exact creation_setup (ibvCreateQp_cases ..)
  | createQpEx env real context attr => exact creation_setup (createQpExWrapper_cases ..)
  | destroyQp env qp real => exact ibvDestroyQp_setup real
  | regMr env length real => exact ibvRegMr_setup length real
  | deregMr env mr length real => exact ibvDeregMr_setup length real
  | createCq env real => exact createCounted_setup .cq RealVerbs.createCq real
  | destroyCq env cq real => exact destroyCounted_setup .cq RealVerbs.destroyCq real
  | allocPd env real => exact createCounted_setup .pd RealVerbs.allocPd real
  | deallocPd env pd real => exact destroyCounted_setup .pd RealVerbs.deallocPd real

/-- An initialized process is not initialized again. -/
theorem entered_of_hooksInit {call : HookCall} (h : v.proc.hooksInit = true) :
    call.entered v = v := by
  cases call with
  | createQpEx env real context attr => rfl
  | _ => exact hooksInitOnce_of_init _ h

end Setup

theorem Binds.of_setup {q : UInt32} {p p' : Process} (h : Binds q p) (hsame : SameSetup p p') :
    Binds q p' := by
  intro hinit hcontrol
  rw [hsame.hooksInit] at hinit
  rw [hsame.config] at hcontrol
  have henabled : rdmaInterceptIsEnabled p' = rdmaInterceptIsEnabled p := by
    unfold rdmaInterceptIsEnabled
    rw [hsame.config, hsame.initialized]
  rw [henabled, hsame.config]
  exact h hinit hcontrol

/-! ## When stored limits bind -/

/-- A limit is stored only if the configuration of every initialized process
is at least as strict, and a process loads only such a configuration. -/
def KeepsBinding (w : LimitWorld) : LimitEvent → Prop
  | .store writer => ∀ q, (writer.run w.manager w.shm).stored = some q →
      ∀ pid p, w.procs pid = some p → Binds q p
  | .hook pid call => ∀ q p, w.stored = some q → w.procs pid = some p → p.hooksInit = false →
      Binds q (call.entered (w.view p)).proc
  | _ => True

/-- The stored limit binds every process. -/
def AllBound (w : LimitWorld) : Prop :=
  ∀ q, w.stored = some q → ∀ pid p, w.procs pid = some p → Binds q p

section Steps

variable {w w' : LimitWorld} {e : LimitEvent}

/-- One process is replaced by one that the limit binds. -/
theorem AllBound.update (h : AllBound w) {pid : Int} {p : Process}
    (hp : ∀ q, w.stored = some q → Binds q p) {shm : SharedMemoryData}
    {tenant : TenantSharedMemory} :
    AllBound { w with
      shm := shm
      tenant := tenant
      procs := Function.update w.procs pid (some p) } := by
  intro q hq pid' p' hp'
  simp only at hq hp'
  by_cases hpid : pid' = pid
  · subst hpid
    rw [Function.update_self] at hp'
    obtain rfl := Option.some.inj hp'
    exact hp q hq
  · rw [Function.update_of_ne hpid] at hp'
    exact h q hq pid' p' hp'

theorem AllBound.hook (h : AllBound w) {pid : Int} {p : Process} {call : HookCall}
    (hp : w.procs pid = some p) (hok : KeepsBinding w (.hook pid call)) :
    AllBound (w.afterHook pid p call) := by
  refine h.update fun q hq => ?_
  have hentered : Binds q (call.entered (w.view p)).proc := by
    by_cases hinit : p.hooksInit = true
    · rw [entered_of_hooksInit hinit]
      exact h q hq pid p hp
    · exact hok q p hq hp (Bool.eq_false_of_not_eq_true hinit)
  exact hentered.of_setup (exec_setup call (w.view p))

theorem AllBound.store (h : AllBound w) {writer : LimitWriter}
    (hok : KeepsBinding w (.store writer)) : AllBound (w.afterStore writer) := by
  intro q hq pid p hp
  change ((writer.run w.manager w.shm).stored <|> w.stored) = some q at hq
  cases hstored : (writer.run w.manager w.shm).stored with
  | some q' =>
      rw [hstored] at hq
      obtain rfl := Option.some.inj hq
      exact hok q' hstored pid p hp
  | none =>
      rw [hstored] at hq
      exact h q hq pid p hp

theorem AllBound.step (h : AllBound w) (hok : KeepsBinding w e) (hstep : LimitStep w e w') :
    AllBound w' := by
  cases hstep with
  | start _ =>
      -- a process that has not called a hook controls nothing
      exact h.update fun q _ hinit => by cases hinit
  | fork hp _ =>
      refine h.update ?_
      intro q hq hinit hcontrol
      have hparent := h q hq _ _ hp
      exact hparent hinit hcontrol
  | hook hp => exact h.hook hp hok
  | store => exact h.store hok
  | collect => exact h

end Steps

theorem AllBound.enforced {w : LimitWorld} (h : AllBound w) : Enforced w := by
  intro q hq hfull pid p hp hcontrols env attr
  have hbinds := h q hq pid p hp
  constructor
  · intro real
    have hcases := ibvCreateQp_cases env real attr (w.view p)
    rw [hooksInitOnce_of_init env hcontrols.hooksInit, checkQpCreationRestrictions_eq] at hcases
    exact creation_denied (v := w.view p) hcontrols hbinds hfull hcases
  · intro real context
    have hcases := createQpExWrapper_cases env real context attr (w.view p)
    rw [checkQpCreationRestrictionsExtended_eq] at hcases
    exact creation_denied (v := w.view p) hcontrols hbinds hfull hcases

/-- **Limits stored at run time are enforced** in every run in which no
process has a configuration more generous than the limit stored last. -/
theorem runtime_limits_enforced {w₀ w : LimitWorld} {events : List LimitEvent}
    (hstart : w₀.stored = none)
    (hrun : Run (fun w e w' => KeepsBinding w e ∧ LimitStep w e w') w₀ events w) :
    Enforced w := by
  have hinv : AllBound w := by
    refine Run.invariant (P := AllBound) ?_ (fun _ _ _ h hstep => h.step hstep.1 hstep.2) hrun
    intro q hq
    rw [hstart] at hq
    cases hq
  exact hinv.enforced

/-! ## A limit set below the own one -/

/-- Process 100 under QP control, with a global limit of its own. -/
def cappedProcess (own qps : UInt32) : Process :=
  { plainProcess 100 with
    intercept := ⟨true, { InterceptConfig.default with
      enableQpControl := true, maxGlobalQp := own }, qps, 0, 0⟩ }

def rcAttr : QpInitAttr := ⟨.rc, 1, 1⟩

/-- A call that the provider answers with QP `qp`. -/
def createCapped (qp : Nat) : HookCall := .createQp quietEnv (fun _ => some qp) rcAttr

/-- Its own limits let the process create a QP while the counts are small. -/
theorem cappedProcess_create {own qps : UInt32} {s : SharedMemoryData}
    {tenant : TenantSharedMemory} (qp : Nat) (hown : (entryQp s 100).toUInt32 + 1 ≤ 100)
    (htotal : s.globalStats.qpCount.toUInt32 < own) :
    ibvCreateQp quietEnv (fun _ => some qp) rcAttr ⟨cappedProcess own qps, s, tenant⟩ =
      (⟨some qp, none, some rcAttr⟩,
        ⟨cappedProcess own (qps + 1),
          (shmUpdateProcessResources 100 ⟨(qps + 1).toInt32, 0, 0⟩ 0 s).2, tenant⟩) := by
  have hcheck : checkQpCreationRestrictions rcAttr ⟨cappedProcess own qps, s, tenant⟩ = true := by
    rw [checkQpCreationRestrictions_eq, ownChecks_eq rfl rfl (by show (0 : Int) < 100; decide),
      globalCheck_eq rfl rfl]
    show (true && decide ((entryQp s 100).toUInt32 + 1 ≤ 100) && true &&
      decide (s.globalStats.qpCount.toUInt32 < own)) = true
    simp [hown, htotal]
  show (if checkQpCreationRestrictions rcAttr ⟨cappedProcess own qps, s, tenant⟩ = false then _
    else _) = _
  rw [if_neg (by rw [hcheck]; decide)]
  rfl

/-- Process 100 with `qps` QPs, and a policy manager that has mapped the
segment. -/
def cappedWorld (own : UInt32) (shm : SharedMemoryData) (qps : UInt32) (config : PolicyConfig)
    (stored : Option UInt32) : LimitWorld where
  shm := shm
  tenant := SharedMemoryTenant.zeroed
  procs := fun pid => if pid = 100 then some (cappedProcess own qps) else none
  manager := ⟨config, true⟩
  stored := stored

/-- `dynamic_policy_set_limit` with a global QP limit. -/
def setGlobalQp (q : UInt32) : LimitEvent := .store (.setLimit .qp (some ⟨100, q, 0⟩))

def policyWith (q : UInt32) : PolicyConfig := { PolicyConfig.default with qpPolicy := ⟨100, q, 0⟩ }

/-- The segment with the limit stored. -/
def limitStored (q : UInt32) (shm : SharedMemoryData) : SharedMemoryData :=
  shmSetGlobalLimits q 10000 (10 * 1024 * 1024 * 1024) shm

theorem setGlobalQp_step (own : UInt32) (shm : SharedMemoryData) (qps q : UInt32) :
    LimitStep (cappedWorld own shm qps .default none) (setGlobalQp q)
      (cappedWorld own (limitStored q shm) qps (policyWith q) (some q)) :=
  .store

/-- The process creates a QP. -/
theorem createCapped_step {own qps : UInt32} {shm : SharedMemoryData} {config : PolicyConfig}
    {stored : Option UInt32} (qp : Nat) (hown : (entryQp shm 100).toUInt32 + 1 ≤ 100)
    (htotal : shm.globalStats.qpCount.toUInt32 < own) :
    LimitStep (cappedWorld own shm qps config stored) (.hook 100 (createCapped qp))
      (cappedWorld own (shmUpdateProcessResources 100 ⟨(qps + 1).toInt32, 0, 0⟩ 0 shm).2
        (qps + 1) config stored) := by
  have hview : (ibvCreateQp quietEnv (fun _ => some qp) rcAttr
      ⟨cappedProcess own qps, shm, SharedMemoryTenant.zeroed⟩).2 = _ :=
    congrArg Prod.snd (cappedProcess_create qp hown htotal)
  have hafter : (cappedWorld own shm qps config stored).afterHook 100 (cappedProcess own qps)
      (createCapped qp) = cappedWorld own
        (shmUpdateProcessResources 100 ⟨(qps + 1).toInt32, 0, 0⟩ 0 shm).2 (qps + 1) config
        stored := by
    unfold LimitWorld.afterHook
    change ((createCapped qp).exec
      ((cappedWorld own shm qps config stored).view (cappedProcess own qps))).2 = _ at hview
    simp only [hview]
    unfold cappedWorld
    congr 1
    funext pid
    by_cases hpid : pid = 100
    · rw [hpid, Function.update_self, if_pos rfl]
    · rw [Function.update_of_ne hpid, if_neg hpid]
      exact if_neg hpid
  rw [← hafter]
  exact .hook rfl

/-- A limit of one QP that the process grants itself as well: its first QP is
created, and the next one denied. -/
theorem runtime_limits_enforced_at_own :
    ∃ w, Run (fun w e w' => KeepsBinding w e ∧ LimitStep w e w')
        (cappedWorld 1 zeroed 0 .default none) [setGlobalQp 1, .hook 100 (createCapped 1)] w ∧
      w.stored = some 1 ∧ w.shm.globalStats.qpCount = 1 ∧
      w.procs 100 = some (cappedProcess 1 1) ∧
      Denied (ibvCreateQp quietEnv (fun _ => some 2) rcAttr (w.view (cappedProcess 1 1))).1 := by
  have hok : KeepsBinding (cappedWorld 1 zeroed 0 .default none) (setGlobalQp 1) := by
    intro q hq pid p hp
    obtain rfl := Option.some.inj hq
    change (if pid = 100 then some (cappedProcess 1 0) else none) = some p at hp
    split at hp
    · obtain rfl := Option.some.inj hp
      intro _ _
      exact ⟨rfl, by decide⟩
    · cases hp
  have hinit : KeepsBinding (cappedWorld 1 (limitStored 1 zeroed) 0 (policyWith 1) (some 1))
      (.hook 100 (createCapped 1)) := by
    intro q p _ hp hinit
    obtain rfl := Option.some.inj hp
    cases hinit
  have hown : (entryQp (limitStored 1 zeroed) 100).toUInt32 + 1 ≤ 100 := by
    show (entryQp zeroed 100).toUInt32 + 1 ≤ 100
    rw [entryQp_zeroed]
    decide
  have hstart : Run (fun w e w' => KeepsBinding w e ∧ LimitStep w e w')
      (cappedWorld 1 zeroed 0 .default none) [] (cappedWorld 1 zeroed 0 .default none) := .start
  have hrun := (hstart.snoc ⟨hok, setGlobalQp_step 1 zeroed 0 1⟩).snoc
    ⟨hinit, createCapped_step 1 hown (by decide)⟩
  have hwf : TableWf (limitStored 1 zeroed) :=
    ⟨TableWf.zeroed.distinct, TableWf.zeroed.pid_nonneg, TableWf.zeroed.hole_stats,
      TableWf.zeroed.hole_start⟩
  have htotal : (shmUpdateProcessResources 100 ⟨1, 0, 0⟩ 0
      (limitStored 1 zeroed)).2.globalStats.qpCount = 1 := by
    rw [globalQp_update_entry hwf _ _ (by decide) (hasRoom_zeroed 100)]
    show (0 : Int32) + (1 - entryQp zeroed 100) = 1
    rw [entryQp_zeroed]
    decide
  refine ⟨_, hrun, rfl, htotal, rfl, ?_⟩
  refine (runtime_limits_enforced rfl hrun 1 rfl ?_ 100 _ rfl ⟨rfl, rfl, rfl⟩ quietEnv rcAttr).1 _
  show (1 : Int) ≤ (shmUpdateProcessResources 100 ⟨1, 0, 0⟩ 0
    (limitStored 1 zeroed)).2.globalStats.qpCount.toInt
  rw [htotal]
  decide

/-- **A limit stored below the process's own is not enforced.**  The process
creates a QP, the global limit is set to one, and a second QP is created. -/
theorem stored_limit_ignored :
    ∃ w, Run LimitStep (cappedWorld 1000 zeroed 0 .default none)
        [.hook 100 (createCapped 1), setGlobalQp 1] w ∧
      w.stored = some 1 ∧ w.shm.globalStats.qpCount = 1 ∧
      w.procs 100 = some (cappedProcess 1000 1) ∧ ControlsQps (cappedProcess 1000 1) ∧
      (ibvCreateQp quietEnv (fun _ => some 2) rcAttr (w.view (cappedProcess 1000 1))).1 =
        ⟨some 2, none, some rcAttr⟩ := by
  have hfirst : (entryQp zeroed 100).toUInt32 + 1 ≤ 100 := by
    rw [entryQp_zeroed]
    decide
  have hcreated : LimitStep (cappedWorld 1000 zeroed 0 .default none)
      (.hook 100 (createCapped 1)) (cappedWorld 1000 oneQp 1 .default none) :=
    createCapped_step 1 hfirst (by decide)
  have hrun := (Run.start.snoc hcreated).snoc (setGlobalQp_step 1000 oneQp 1 1)
  refine ⟨_, hrun, rfl, oneQp_total, rfl, ⟨rfl, rfl, rfl⟩, ?_⟩
  -- storing a limit changes neither the entry nor the total
  have hown : (entryQp oneQp 100).toUInt32 + 1 ≤ 100 := by
    have hentry : entryQp oneQp 100 = 1 :=
      entryQp_update_self TableWf.zeroed ⟨1, 0, 0⟩ 0 (by decide) (hasRoom_zeroed 100)
    rw [hentry]
    decide
  have htotal : oneQp.globalStats.qpCount.toUInt32 < 1000 := by
    rw [oneQp_total]
    decide
  have hexec : ibvCreateQp quietEnv (fun _ => some 2) rcAttr
      ⟨cappedProcess 1000 1, limitStored 1 oneQp, SharedMemoryTenant.zeroed⟩ = _ :=
    cappedProcess_create 2 hown htotal
  exact congrArg Prod.fst hexec

end MtRdma.Ports.RuntimeLimits
