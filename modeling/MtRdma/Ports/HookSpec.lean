import MtRdma.Ports.RdmaHooks
import MtRdma.Ports.TenantLedger

/-!
# What the hooks do to a tenant's ledger

Initialization and tenant resolution bind processes, which no ledger notices.
What is left of a hook, seen from the ledger of the tenant it resolves to, is
one of a few rewrites of the usage record; this file names them.
-/

namespace MtRdma.Ports.RdmaHooks

open SharedMemory
open SharedMemoryTenant

variable {v : View} {env : HookEnv} {tenantId : UInt32} {attr : QpInitAttr} {t : TenantIdx}
  {length : UInt64} {verb : Option (QpInitAttr → Option Nat)} {permitted : Bool}
  {result : CreateQpResult × View}

/-! ## Resolution only binds -/

section Binding

variable {P : TenantSharedMemory → Prop} {pid : Int}

theorem bindFromEnv_invariant
    (hbind : ∀ tenantId s, P s → P (tenantBindProcess pid tenantId s).2) (env : HookEnv)
    {s : TenantSharedMemory} (h : P s) : P (bindFromEnv env pid s) := by
  unfold bindFromEnv
  split
  · exact h
  · split
    · exact hbind _ _ h
    · exact h

theorem bindFromCgroup_invariant
    (hbind : ∀ tenantId s, P s → P (tenantBindProcess pid tenantId s).2) (ready : Bool)
    {s : TenantSharedMemory} (h : P s) (lines : List (List Char)) :
    P (bindFromCgroup ready pid lines s).2 := by
  induction lines with
  | nil => exact h
  | cons line rest ih =>
      unfold bindFromCgroup
      split
      · split
        · exact hbind _ _ h
        · exact ih
      · exact ih

/-- What binding the calling process keeps, resolution keeps. -/
theorem getCurrentTenantId_invariant
    (hbind : ∀ tenantId s, P s → P (tenantBindProcess v.proc.pid tenantId s).2) (env : HookEnv)
    (h : P v.tenant) : P (getCurrentTenantId env v).2.tenant := by
  have hcgroup : P (cgroupStep env v).tenant := bindFromCgroup_invariant hbind _ h _
  unfold getCurrentTenantId
  simp only
  split
  · unfold forkStep
    split
    · exact bindFromEnv_invariant hbind _ hcgroup
    · exact hcgroup
  · exact hcgroup

/-- What binding the calling process keeps, initialization keeps. -/
theorem hooksInitOnce_invariant
    (hbind : ∀ tenantId s, P s → P (tenantBindProcess v.proc.pid tenantId s).2) (env : HookEnv)
    (h : P v.tenant) : P (hooksInitOnce env v).tenant := by
  unfold hooksInitOnce
  split
  · exact h
  · unfold initFunctionPointers
    simp only
    split
    · exact h
    · simp only
      split
      · exact bindFromEnv_invariant hbind _ h
      · exact h

end Binding

theorem ledger_getCurrentTenantId (env : HookEnv) (v : View) :
    ledger (getCurrentTenantId env v).2.tenant = ledger v.tenant :=
  getCurrentTenantId_invariant (P := fun s => ledger s = ledger v.tenant)
    (fun _ _ h => (ledger_bind _ _ _).trans h) env rfl

theorem ledger_hooksInitOnce (env : HookEnv) (v : View) :
    ledger (hooksInitOnce env v).tenant = ledger v.tenant :=
  hooksInitOnce_invariant (P := fun s => ledger s = ledger v.tenant)
    (fun _ _ h => (ledger_bind _ _ _).trans h) env rfl

/-! ## What resolution changes in the process -/

/-- Resolution reaches a tenant only in a process that has the tenant segment
mapped. -/
theorem tenantInitialized_of_resolved (h : (getCurrentTenantId env v).1 ≠ 0) :
    (getCurrentTenantId env v).2.proc.tenantInitialized = true := by
  unfold getCurrentTenantId at h ⊢
  simp only at h ⊢
  split
  · rename_i hinit
    unfold forkStep
    split
    · exact hinit
    · exact hinit
  · rename_i hinit
    rw [if_neg hinit] at h
    exact absurd rfl h

/-- Resolution moves two fields of the process and the tenant store. -/
theorem getCurrentTenantId_view (env : HookEnv) (v : View) :
    ∃ ready cachedPid s, (getCurrentTenantId env v).2 =
      { v with
        proc := { v.proc with tenantInitialized := ready, cachedPid := cachedPid }
        tenant := s } := by
  unfold getCurrentTenantId
  simp only
  split
  · unfold forkStep
    split
    · exact ⟨_, _, _, rfl⟩
    · exact ⟨_, v.proc.cachedPid, _, rfl⟩
  · exact ⟨_, v.proc.cachedPid, _, rfl⟩

/-- Two process records that resolution cannot tell apart. -/
structure SameIdentity (p q : Process) : Prop where
  pid : q.pid = p.pid
  tenantInitialized : q.tenantInitialized = p.tenantInitialized
  cachedPid : q.cachedPid = p.cachedPid

/-- Resolution does not look at the counters of the process. -/
theorem getCurrentTenantId_congr (env : HookEnv) {w : View} (hproc : SameIdentity v.proc w.proc)
    (htenant : w.tenant = v.tenant) :
    (getCurrentTenantId env w).1 = (getCurrentTenantId env v).1 ∧
      (getCurrentTenantId env w).2.tenant = (getCurrentTenantId env v).2.tenant := by
  unfold getCurrentTenantId forkStep cgroupStep tenantShmReady
  simp only [hproc.pid, hproc.tenantInitialized, hproc.cachedPid, htenant]
  split
  · split
    · exact ⟨rfl, rfl⟩
    · exact ⟨rfl, rfl⟩
  · exact ⟨rfl, rfl⟩

/-! ## Rewrites of one ledger -/

/-- A ledger with another usage record. -/
def withUsage (l : Ledger) (u : TenantResourceUsage) : Ledger := { l with usage := u }

@[simp] theorem withUsage_usage (l : Ledger) (u : TenantResourceUsage) :
    (withUsage l u).usage = u := rfl

section Ledgers

variable {tenantId : UInt32} {t : TenantIdx} {s : TenantSharedMemory}

theorem rewriteUsage_active (ht : tenantIdx? tenantId = some t)
    (hact : (s.tenants t).status = .active) (f : TenantResourceUsage → TenantResourceUsage) :
    rewriteUsage tenantId f s =
      setTenant t { s.tenants t with usage := f (s.tenants t).usage } s := by
  unfold rewriteUsage
  rw [tenantGetResourceUsage_active ht hact]
  simp only
  rw [tenantUpdateResourceUsage_active ht hact]

theorem rewriteUsage_frame (tenantId : UInt32)
    (f : TenantResourceUsage → TenantResourceUsage) (s : TenantSharedMemory) :
    (rewriteUsage tenantId f s).pidMappings = s.pidMappings := by
  unfold rewriteUsage
  split
  · rfl
  · exact tenantUpdateResourceUsage_frame _ _ _

theorem ledger_setUsage (u : TenantResourceUsage) :
    ledger (setTenant t { s.tenants t with usage := u } s) =
      Function.update (ledger s) t (withUsage (ledger s t) u) := by
  rw [ledger_setTenant]
  rfl

theorem ledger_setUsage_self (u : TenantResourceUsage) :
    ledger (setTenant t { s.tenants t with usage := u } s) t = withUsage (ledger s t) u := by
  rw [ledger_setUsage, Function.update_self]

theorem ledgers_rewriteUsage (ht : tenantIdx? tenantId = some t)
    (hact : (s.tenants t).status = .active) (f : TenantResourceUsage → TenantResourceUsage) :
    ledger (rewriteUsage tenantId f s) =
      Function.update (ledger s) t (withUsage (ledger s t) (f (ledger s t).usage)) := by
  rw [rewriteUsage_active ht hact]
  exact ledger_setUsage _

theorem ledger_rewriteUsage (ht : tenantIdx? tenantId = some t)
    (hact : (s.tenants t).status = .active) (f : TenantResourceUsage → TenantResourceUsage) :
    ledger (rewriteUsage tenantId f s) t =
      withUsage (ledger s t) (f (ledger s t).usage) := by
  rw [ledgers_rewriteUsage ht hact, Function.update_self]

end Ledgers

/-! ## QP creation -/

/-- What a QP creation does to the ledger of its tenant: nothing when it is
refused early; a clamp when the quota is exhausted; otherwise a reservation,
which stays if the verb succeeds and is rolled back if it fails. -/
inductive CreateQpOutcome (l : Ledger) : CreateQpResult → Ledger → Prop
  | refused {r : CreateQpResult} : r.invoked = none → r.qp = none → CreateQpOutcome l r l
  | overQuota {r : CreateQpResult} : r.invoked = none → r.qp = none →
      l.quota.maxQpPerTenant ≤ (clampQp l.usage).qpCount.toUInt32 →
      CreateQpOutcome l r (withUsage l (clampQp l.usage))
  | created {r : CreateQpResult} {attr : QpInitAttr} {qp : Nat} : r.invoked = some attr →
      r.qp = some qp →
      ¬l.quota.maxQpPerTenant ≤ (clampQp l.usage).qpCount.toUInt32 →
      CreateQpOutcome l r (withUsage l (reserveQp (clampQp l.usage)))
  | failed {r : CreateQpResult} {attr : QpInitAttr} : r.invoked = some attr → r.qp = none →
      ¬l.quota.maxQpPerTenant ≤ (clampQp l.usage).qpCount.toUInt32 →
      CreateQpOutcome l r (withUsage l (rollbackQp (reserveQp (clampQp l.usage))))

@[simp] theorem publish_tenant (env : HookEnv) (v : View) :
    (publish env v).tenant = v.tenant := by
  unfold publish
  split <;> rfl

@[simp] theorem latchMandatory_tenant (env : HookEnv) (v : View) :
    (latchMandatory env v).2.tenant = v.tenant := by
  unfold latchMandatory
  split <;> rfl

@[simp] theorem latchMandatory_tenantInitialized (env : HookEnv) (v : View) :
    (latchMandatory env v).2.proc.tenantInitialized = v.proc.tenantInitialized := by
  unfold latchMandatory
  split <;> rfl

/-- With a tenant in hand the limit check is the atomic reservation; the
mandatory block does not apply. -/
theorem checkTenantQpLimit_bound (hne : tenantId ≠ 0) (hinit : v.proc.tenantInitialized = true) :
    checkTenantQpLimit env tenantId v =
      ((tenantTryAllocateQp tenantId v.tenant).1,
        { (latchMandatory env v).2 with tenant := (tenantTryAllocateQp tenantId v.tenant).2 }) := by
  have hrebind : mandatoryRebind env tenantId (latchMandatory env v).2 =
      (tenantId, (latchMandatory env v).2) := by
    unfold mandatoryRebind
    rw [if_neg hne]
  unfold checkTenantQpLimit
  simp [hrebind, hne, hinit]

/-- What the tenant step does to the ledger of the tenant it resolves to. -/
inductive TenantStepOutcome (tenantId : UInt32) (l : Ledger) :
    Option (Bool × UInt32) → Ledger → Prop
  | overQuota : l.quota.maxQpPerTenant ≤ (clampQp l.usage).qpCount.toUInt32 →
      TenantStepOutcome tenantId l none (withUsage l (clampQp l.usage))
  | reserved : ¬l.quota.maxQpPerTenant ≤ (clampQp l.usage).qpCount.toUInt32 →
      TenantStepOutcome tenantId l (some (true, tenantId))
        (withUsage l (reserveQp (clampQp l.usage)))

theorem tenantStep_outcome (hne : tenantId ≠ 0) (ht : tenantIdx? tenantId = some t)
    (hres : (getCurrentTenantId env v).1 = tenantId) (hact : (ledger v.tenant t).status = .active) :
    TenantStepOutcome tenantId (ledger v.tenant t) (tenantStep env v).1
      (ledger (tenantStep env v).2.tenant t) := by
  have hinit : (getCurrentTenantId env v).2.proc.tenantInitialized = true :=
    tenantInitialized_of_resolved (by rw [hres]; exact hne)
  have hledger : ledger (getCurrentTenantId env v).2.tenant t = ledger v.tenant t :=
    congrFun (ledger_getCurrentTenantId env v) t
  rw [← hledger] at hact ⊢
  unfold tenantStep
  simp only [hres]
  generalize (getCurrentTenantId env v).2 = w at hinit hact ⊢
  rw [if_pos ⟨hne, hinit⟩, checkTenantQpLimit_bound hne hinit, tenantTryAllocateQp_active ht hact]
  by_cases hquota :
      (w.tenant.tenants t).quota.maxQpPerTenant ≤
        (clampQp (w.tenant.tenants t).usage).qpCount.toUInt32
  · rw [if_pos hquota]
    simp only [Bool.false_eq_true, if_false]
    rw [ledger_setUsage_self]
    exact .overQuota hquota
  · rw [if_neg hquota]
    simp only [if_true]
    rw [ledger_setUsage_self]
    exact .reserved hquota

theorem createForTenant_outcome {real : QpInitAttr → Option Nat} (hne : tenantId ≠ 0)
    (ht : tenantIdx? tenantId = some t) (hres : (getCurrentTenantId env v).1 = tenantId)
    (hact : (ledger v.tenant t).status = .active) :
    CreateQpOutcome (ledger v.tenant t) (createForTenant env real attr v).1
      (ledger (createForTenant env real attr v).2.tenant t) := by
  have hstep := tenantStep_outcome hne ht hres hact
  unfold createForTenant
  generalize (tenantStep env v).2 = w at hstep ⊢
  generalize (tenantStep env v).1 = decision at hstep ⊢
  generalize hmoment : ledger w.tenant t = moment at hstep
  cases hstep with
  | overQuota hquota =>
      simp only [hmoment]
      exact .overQuota rfl rfl hquota
  | reserved hquota =>
      have hact' : (w.tenant.tenants t).status = .active := by
        show (ledger w.tenant t).status = .active
        rw [hmoment]
        exact hact
      unfold createAndSettle
      simp only
      split
      · simp only [publish_tenant, hmoment]
        exact .created rfl rfl hquota
      · simp only [if_true]
        rw [ledger_rewriteUsage ht hact', hmoment]
        exact .failed rfl rfl hquota

/-! ## Every path through a hook

The paths through a creation past its checks and through the two MR hooks,
each with the guard that decides it; what is proved about them is read off
these paths. -/

/-- What a creation past its checks can return, and the state it leaves. -/
inductive ForTenantOutcome (env : HookEnv) (real : QpInitAttr → Option Nat) (attr : QpInitAttr)
    (v : View) : CreateQpResult × View → Prop
  | denied (hstep : (tenantStep env v).1 = none) :
      ForTenantOutcome env real attr v (⟨none, some .eperm, none⟩, (tenantStep env v).2)
  | created (qp : Nat) (decision : Bool × UInt32) (hstep : (tenantStep env v).1 = some decision)
      (hreal : real (clipAttr (tenantStep env v).2.proc.intercept.config attr) = some qp) :
      ForTenantOutcome env real attr v
        (⟨some qp, none, some (clipAttr (tenantStep env v).2.proc.intercept.config attr)⟩,
          publish env { (tenantStep env v).2 with proc := countOwnQp (tenantStep env v).2.proc })
  | failed (tenantOk : Bool) (tenantId : UInt32)
      (hstep : (tenantStep env v).1 = some (tenantOk, tenantId))
      (hreal : real (clipAttr (tenantStep env v).2.proc.intercept.config attr) = none) :
      ForTenantOutcome env real attr v
        (⟨none, none, some (clipAttr (tenantStep env v).2.proc.intercept.config attr)⟩,
          if tenantOk then
            { (tenantStep env v).2 with
              tenant := rewriteUsage tenantId rollbackQp (tenantStep env v).2.tenant }
          else (tenantStep env v).2)

theorem createForTenant_cases (env : HookEnv) (real : QpInitAttr → Option Nat)
    (attr : QpInitAttr) (v : View) :
    ForTenantOutcome env real attr v (createForTenant env real attr v) := by
  unfold createForTenant
  split
  · next hstep => exact .denied hstep
  · next tenantOk tenantId hstep =>
      unfold createAndSettle
      simp only
      split
      · next qp hreal => exact .created qp (tenantOk, tenantId) hstep hreal
      · next hreal => exact .failed tenantOk tenantId hstep hreal

/-- What a QP creation can return, and the state it leaves, from the state `w`
after initialization.  The two hooks differ in the verb they go on to, if they
have one, and in their restrictions. -/
inductive CreationOutcome (env : HookEnv) (verb : Option (QpInitAttr → Option Nat))
    (permitted : Bool) (attr : QpInitAttr) (w : View) : CreateQpResult × View → Prop
  | missing (hverb : verb = none) :
      CreationOutcome env verb permitted attr w (⟨none, some .enosys, none⟩, w)
  | passed {real : QpInitAttr → Option Nat} (hverb : verb = some real)
      (hoff : rdmaInterceptIsEnabled w.proc = false) :
      CreationOutcome env verb permitted attr w (⟨real attr, none, some attr⟩, w)
  | refused (hcheck : permitted = false) :
      CreationOutcome env verb permitted attr w (⟨none, some .eperm, none⟩, w)
  | checked {real : QpInitAttr → Option Nat} (hverb : verb = some real)
      (hon : rdmaInterceptIsEnabled w.proc = true) (hcheck : permitted = true) :
      CreationOutcome env verb permitted attr w (createForTenant env real attr w)

theorem ibvCreateQp_cases (env : HookEnv) (real : QpInitAttr → Option Nat) (attr : QpInitAttr)
    (v : View) :
    CreationOutcome env
      (if (hooksInitOnce env v).proc.realVerbs.createQp then some real else none)
      (checkQpCreationRestrictions attr (hooksInitOnce env v)) attr (hooksInitOnce env v)
      (ibvCreateQp env real attr v) := by
  unfold ibvCreateQp
  simp only
  generalize hooksInitOnce env v = w
  generalize hreal : (if w.proc.realVerbs.createQp then some real else none) = verb
  split
  · next hfound => exact .missing (by simp [← hreal, hfound])
  · next hfound =>
      have hverb := hreal.symm.trans (if_pos (by simpa using hfound))
      split
      · next hoff => exact .passed hverb hoff
      · next hon =>
          split
          · next hcheck => exact .refused hcheck
          · next hcheck => exact .checked hverb (by simpa using hon) (by simpa using hcheck)

theorem createQpExWrapper_cases (env : HookEnv) (real : Nat → QpInitAttr → Option Nat)
    (context : Nat) (attr : QpInitAttr) (v : View) :
    CreationOutcome env ((findOriginalCreateQpEx context v.proc).map real)
      (checkQpCreationRestrictionsExtended attr v) attr v
      (createQpExWrapper env real context attr v) := by
  unfold createQpExWrapper
  split
  · next hfound => exact .missing (by simp [hfound])
  · next original hfound =>
      have hverb := congrArg (Option.map real) hfound
      split
      · next hoff => exact .passed hverb hoff
      · next hon =>
          split
          · next hcheck => exact .refused hcheck
          · next hcheck => exact .checked hverb (by simpa using hon) (by simpa using hcheck)

/-- What `ibv_reg_mr` can return, and the state it leaves, from the state `w`
after initialization. -/
inductive RegMrOutcome (env : HookEnv) (length : UInt64) (real : Option Nat) (w : View) :
    CreateResult × View → Prop
  | missing (hfound : w.proc.realVerbs.regMr = false) :
      RegMrOutcome env length real w (⟨none, some .enosys, false⟩, w)
  | passed (hoff : rdmaInterceptIsEnabled w.proc = false) :
      RegMrOutcome env length real w (⟨real, none, true⟩, w)
  | overQuota
      (hcheck : checkTenantMrLimitInline (getCurrentTenantId env w).1 length
        (getCurrentTenantId env w).2 = false) :
      RegMrOutcome env length real w
        (⟨none, some .eperm, false⟩, (getCurrentTenantId env w).2)
  | overRate
      (hrate : (checkMrRateLimit env (getCurrentTenantId env w).2.proc).1 = false)
      (hcheck : checkTenantMrLimitInline (getCurrentTenantId env w).1 length
        (getCurrentTenantId env w).2 = true) :
      RegMrOutcome env length real w (⟨none, some .eagain, false⟩,
        { (getCurrentTenantId env w).2 with
          proc := (checkMrRateLimit env (getCurrentTenantId env w).2.proc).2 })
  | refused (hreal : real = none)
      (hcheck : checkTenantMrLimitInline (getCurrentTenantId env w).1 length
        (getCurrentTenantId env w).2 = true) :
      RegMrOutcome env length real w (⟨none, none, true⟩,
        { (getCurrentTenantId env w).2 with
          proc := (checkMrRateLimit env (getCurrentTenantId env w).2.proc).2 })
  | registered (mr : Nat) (hreal : real = some mr)
      (hcheck : checkTenantMrLimitInline (getCurrentTenantId env w).1 length
        (getCurrentTenantId env w).2 = true) :
      RegMrOutcome env length real w (⟨some mr, none, true⟩,
        updateTenantResourceCount (getCurrentTenantId env w).1 .mr 1
          { (getCurrentTenantId env w).2 with
            proc := countOwnMr length
              (checkMrRateLimit env (getCurrentTenantId env w).2.proc).2 })

theorem ibvRegMr_cases (env : HookEnv) (length : UInt64) (real : Option Nat) (v : View) :
    RegMrOutcome env length real (hooksInitOnce env v) (ibvRegMr env length real v) := by
  unfold ibvRegMr
  simp only
  generalize hooksInitOnce env v = w
  split
  · next hfound => exact .missing hfound
  · split
    · next hoff => exact .passed hoff
    · split
      · next hcheck => exact .overQuota hcheck
      · next hcheck =>
          have hgranted := Bool.eq_true_of_not_eq_false hcheck
          split
          · next hrate => exact .overRate hrate hgranted
          · cases real with
            | none => exact .refused rfl hgranted
            | some mr => exact .registered mr rfl hgranted

/-- What `ibv_dereg_mr` can return, and the state it leaves, from the state
`w` after initialization.  No quota is asked, and the tenant is resolved only
once the verb has succeeded. -/
inductive DeregMrOutcome (env : HookEnv) (length : UInt64) (real : Int) (w : View) :
    DestroyResult × View → Prop
  | missing (hfound : w.proc.realVerbs.deregMr = false) :
      DeregMrOutcome env length real w (⟨-1, some .enosys, false⟩, w)
  | passed (hoff : rdmaInterceptIsEnabled w.proc = false) :
      DeregMrOutcome env length real w (⟨real, none, true⟩, w)
  | overRate (hrate : (checkMrRateLimit env w.proc).1 = false) :
      DeregMrOutcome env length real w (⟨-1, some .eagain, false⟩,
        { w with proc := (checkMrRateLimit env w.proc).2 })
  | refused (hreal : real ≠ 0) :
      DeregMrOutcome env length real w (⟨real, none, true⟩,
        { w with proc := (checkMrRateLimit env w.proc).2 })
  | deregistered (u : View) (hreal : real = 0)
      (hu : u = { w with proc := uncountOwnMr length (checkMrRateLimit env w.proc).2 }) :
      DeregMrOutcome env length real w (⟨0, none, true⟩,
        updateTenantResourceCount (getCurrentTenantId env u).1 .mr (-1)
          (getCurrentTenantId env u).2)

theorem ibvDeregMr_cases (env : HookEnv) (length : UInt64) (real : Int) (v : View) :
    DeregMrOutcome env length real (hooksInitOnce env v) (ibvDeregMr env length real v) := by
  unfold ibvDeregMr
  simp only
  generalize hooksInitOnce env v = w
  split
  · next hfound => exact .missing hfound
  · split
    · next hoff => exact .passed hoff
    · split
      · next hrate => exact .overRate hrate
      · split
        · next hreal => exact .deregistered _ hreal rfl
        · next hreal => exact .refused hreal

/-! ## New objects come from the real verb -/

theorem createForTenant_qp {real : QpInitAttr → Option Nat} {qp : Nat}
    (h : (createForTenant env real attr v).1.qp = some qp) :
    ∃ a, real a = some qp := by
  have hcases := createForTenant_cases env real attr v
  generalize createForTenant env real attr v = result at hcases h
  cases hcases with
  | denied | failed => cases h
  | created qp' decision hstep hreal => exact ⟨_, hreal.trans h⟩

theorem CreationOutcome.qp (h : CreationOutcome env verb permitted attr v result) {qp : Nat}
    (hqp : result.1.qp = some qp) : ∃ real a, verb = some real ∧ real a = some qp := by
  cases h with
  | missing | refused => cases hqp
  | passed hverb => exact ⟨_, attr, hverb, hqp⟩
  | checked hverb => exact ⟨_, (createForTenant_qp hqp).imp fun _ ha => ⟨hverb, ha⟩⟩

theorem ibvCreateQp_qp {real : QpInitAttr → Option Nat} {qp : Nat}
    (h : (ibvCreateQp env real attr v).1.qp = some qp) : ∃ a, real a = some qp := by
  obtain ⟨_, a, hverb, ha⟩ := (ibvCreateQp_cases env real attr v).qp h
  split at hverb
  · cases hverb
    exact ⟨a, ha⟩
  · cases hverb

/-- What a creation does to the ledger of its tenant, on either path. -/
theorem CreationOutcome.ledger_outcome (h : CreationOutcome env verb permitted attr v result)
    (hne : tenantId ≠ 0) (ht : tenantIdx? tenantId = some t)
    (hon : rdmaInterceptIsEnabled v.proc = true)
    (hres : (getCurrentTenantId env v).1 = tenantId) (hact : (ledger v.tenant t).status = .active) :
    CreateQpOutcome (ledger v.tenant t) result.1 (ledger result.2.tenant t) := by
  cases h with
  | missing | refused => exact .refused rfl rfl
  | passed _ hoff => simp [hon] at hoff
  | checked => exact createForTenant_outcome hne ht hres hact

theorem createCounted_object {kind : ResourceKind} {found : RealVerbs → Bool} {real : Option Nat}
    {object : Nat} (h : (createCounted kind found env real v).1.object = some object) :
    real = some object := by
  unfold createCounted at h
  simp only at h
  split at h
  · cases h
  · split at h
    · exact h
    · split at h
      · cases h
      · exact h

theorem ibvRegMr_object {real : Option Nat} {mr : Nat}
    (h : (ibvRegMr env length real v).1.object = some mr) : real = some mr := by
  have hcases := ibvRegMr_cases env length real v
  generalize ibvRegMr env length real v = result at hcases h
  cases hcases with
  | missing | overQuota | overRate | refused => cases h
  | passed => exact h
  | registered mr' hreal => exact hreal.trans h

/-! ## The counting hooks -/

section Counting

variable {env : HookEnv} {v : View} {tenantId : UInt32} {t : TenantIdx}

/-- What `update_tenant_resource_count` does to the ledgers: the count moves for
a tenant that is ACTIVE, and for nobody else. -/
def recount (tenantId : UInt32) (kind : ResourceKind) (delta : Int32) (ls : TenantIdx → Ledger) :
    TenantIdx → Ledger :=
  match tenantIdx? tenantId with
  | none => ls
  | some t =>
      if tenantId ≠ 0 ∧ (ls t).status = .active then
        Function.update ls t (withUsage (ls t) (countDelta kind delta (ls t).usage))
      else ls

theorem recount_active {ls : TenantIdx → Ledger} (hne : tenantId ≠ 0)
    (ht : tenantIdx? tenantId = some t) (hact : (ls t).status = .active) (kind : ResourceKind)
    (delta : Int32) :
    recount tenantId kind delta ls =
      Function.update ls t (withUsage (ls t) (countDelta kind delta (ls t).usage)) := by
  simp only [recount, ht]
  rw [if_pos ⟨hne, hact⟩]

/-- Resolving the tenant and counting for it moves the ledgers as the resolved
tenant says. -/
theorem ledger_resolve_count (env : HookEnv) (v : View) (kind : ResourceKind) (delta : Int32) :
    ledger (updateTenantResourceCount (getCurrentTenantId env v).1 kind delta
        (getCurrentTenantId env v).2).tenant =
      recount (getCurrentTenantId env v).1 kind delta (ledger v.tenant) := by
  have hledger := ledger_getCurrentTenantId env v
  unfold updateTenantResourceCount recount
  by_cases hzero : (getCurrentTenantId env v).1 = 0
  · rw [if_pos (.inl hzero), hledger]
    split
    · rfl
    · rw [if_neg (by simp [hzero])]
  · rw [if_neg (by simp [hzero, tenantInitialized_of_resolved hzero])]
    generalize (getCurrentTenantId env v).1 = n at hzero ⊢
    generalize (getCurrentTenantId env v).2.tenant = s at hledger ⊢
    rw [← hledger]
    cases hn : tenantIdx? n with
    | none => simp [rewriteUsage, tenantGetResourceUsage, hn]
    | some t =>
        by_cases hact : (s.tenants t).status = .active
        · simp only
          rw [ledgers_rewriteUsage hn hact, if_pos ⟨hzero, hact⟩]
        · simp only
          rw [if_neg fun h => hact h.2]
          simp [rewriteUsage, tenantGetResourceUsage, hn, hact]

/-- The ledger of the tenant that a call resolved to. -/
theorem recount_at {ls ls' : TenantIdx → Ledger} {resolved : UInt32} {kind : ResourceKind}
    {delta : Int32} {done : Prop} [Decidable done]
    (h : ls' = if done then recount resolved kind delta ls else ls) (hres : resolved = tenantId)
    (hne : tenantId ≠ 0) (ht : tenantIdx? tenantId = some t) (hact : (ls t).status = .active) :
    ls' t = if done then withUsage (ls t) (countDelta kind delta (ls t).usage) else ls t := by
  rw [h, hres, recount_active hne ht hact]
  split
  · rw [Function.update_self]
  · rfl

theorem createCounted_ledgers (kind : ResourceKind) (found : RealVerbs → Bool)
    (real : Option Nat)
    (henabled : rdmaInterceptIsEnabled (hooksInitOnce env v).proc = true) :
    ledger (createCounted kind found env real v).2.tenant =
      if (createCounted kind found env real v).1.object.isSome then
        recount (getCurrentTenantId env (hooksInitOnce env v)).1 kind 1 (ledger v.tenant)
      else ledger v.tenant := by
  rw [← ledger_hooksInitOnce env v]
  unfold createCounted
  simp only
  split
  · rfl
  · rw [if_neg (by simp [henabled])]
    split
    · rfl
    · simpa using ledger_resolve_count env (hooksInitOnce env v) kind 1

theorem destroyCounted_ledgers (kind : ResourceKind) (found : RealVerbs → Bool) (real : Int)
    (henabled : rdmaInterceptIsEnabled (hooksInitOnce env v).proc = true) :
    ledger (destroyCounted kind found env real v).2.tenant =
      if (destroyCounted kind found env real v).1.rc = 0 then
        recount (getCurrentTenantId env (hooksInitOnce env v)).1 kind (-1) (ledger v.tenant)
      else ledger v.tenant := by
  rw [← ledger_hooksInitOnce env v]
  unfold destroyCounted
  simp only
  split
  · simp
  · rw [if_neg (by simp [henabled])]
    by_cases hreal : real = 0
    · rw [if_pos hreal]
      simpa using ledger_resolve_count env (hooksInitOnce env v) kind (-1)
    · rw [if_neg hreal]
      simp [hreal]

/-- The process's own counter moves first, which resolution does not see. -/
theorem ledger_resolve_count_congr (env : HookEnv) {w : View} (hproc : SameIdentity v.proc w.proc)
    (htenant : w.tenant = v.tenant) (kind : ResourceKind) (delta : Int32) :
    ledger (updateTenantResourceCount (getCurrentTenantId env w).1 kind delta
        (getCurrentTenantId env w).2).tenant =
      recount (getCurrentTenantId env v).1 kind delta (ledger v.tenant) := by
  rw [ledger_resolve_count, (getCurrentTenantId_congr env hproc htenant).1, htenant]

theorem ibvDestroyQp_ledgers (real : Int)
    (henabled : rdmaInterceptIsEnabled (hooksInitOnce env v).proc = true) :
    ledger (ibvDestroyQp env real v).2.tenant =
      if (ibvDestroyQp env real v).1.rc = 0 then
        recount (getCurrentTenantId env (hooksInitOnce env v)).1 .qp (-1) (ledger v.tenant)
      else ledger v.tenant := by
  rw [← ledger_hooksInitOnce env v]
  unfold ibvDestroyQp
  simp only
  split
  · simp
  · rw [if_neg (by simp [henabled])]
    by_cases hreal : real = 0
    · rw [if_pos hreal]
      have hcount := ledger_resolve_count_congr env (v := hooksInitOnce env v)
        (w := { hooksInitOnce env v with proc := uncountOwnQp (hooksInitOnce env v).proc })
        ⟨rfl, rfl, rfl⟩ rfl .qp (-1)
      simpa using hcount
    · rw [if_neg hreal]
      simp [hreal]

theorem renewMrWindow_view (env : HookEnv) (p : Process) :
    ∃ start count, renewMrWindow env p =
      { p with mrRateWindowStart := start, mrOpCountInWindow := count } := by
  unfold renewMrWindow
  split
  · exact ⟨_, _, rfl⟩
  · exact ⟨p.mrRateWindowStart, p.mrOpCountInWindow, rfl⟩

/-- The rate limiter only touches its own window. -/
theorem checkMrRateLimit_view (env : HookEnv) (p : Process) :
    ∃ start count, (checkMrRateLimit env p).2 =
      { p with mrRateWindowStart := start, mrOpCountInWindow := count } := by
  obtain ⟨start, count, hrenew⟩ := renewMrWindow_view env p
  unfold checkMrRateLimit
  simp only [hrenew]
  split
  · exact ⟨p.mrRateWindowStart, p.mrOpCountInWindow, rfl⟩
  · split
    · exact ⟨start, count + 1, rfl⟩
    · exact ⟨start, count, rfl⟩

theorem checkMrRateLimit_identity (env : HookEnv) (p : Process) :
    SameIdentity p (checkMrRateLimit env p).2 := by
  obtain ⟨start, count, hview⟩ := checkMrRateLimit_view env p
  rw [hview]
  exact ⟨rfl, rfl, rfl⟩

theorem ibvDeregMr_ledgers (length : UInt64) (real : Int)
    (henabled : rdmaInterceptIsEnabled (hooksInitOnce env v).proc = true) :
    ledger (ibvDeregMr env length real v).2.tenant =
      if (ibvDeregMr env length real v).1.rc = 0 then
        recount (getCurrentTenantId env (hooksInitOnce env v)).1 .mr (-1) (ledger v.tenant)
      else ledger v.tenant := by
  rw [← ledger_hooksInitOnce env v]
  have hcases := ibvDeregMr_cases env length real v
  generalize ibvDeregMr env length real v = result at hcases ⊢
  generalize hooksInitOnce env v = w at hcases henabled ⊢
  cases hcases with
  | missing | overRate => simp
  | passed hoff => simp [henabled] at hoff
  | refused hreal => simp [hreal]
  | deregistered u _ hu =>
      have hsame := checkMrRateLimit_identity env w.proc
      have hcount := ledger_resolve_count_congr env (v := w)
        (w := { w with proc := uncountOwnMr length (checkMrRateLimit env w.proc).2 })
        ⟨hsame.pid, hsame.tenantInitialized, hsame.cachedPid⟩ rfl .mr (-1)
      simpa [hu] using hcount

/-- A granted MR check finds the count below the quota. -/
theorem mrCount_lt_of_check (hne : tenantId ≠ 0) (ht : tenantIdx? tenantId = some t)
    (hinit : v.proc.tenantInitialized = true) (hact : (ledger v.tenant t).status = .active)
    (hcheck : checkTenantMrLimitInline tenantId length v = true) :
    (ledger v.tenant t).usage.mrCount.toUInt32 < (ledger v.tenant t).quota.maxMrPerTenant := by
  have hst : (v.tenant.tenants t).status = .active := hact
  unfold checkTenantMrLimitInline at hcheck
  rw [if_neg (by simp [hne, hinit])] at hcheck
  simp only [tenantGetInfo, ht, hst] at hcheck
  simp at hcheck
  exact hcheck.1

/-- MR registration: the verb is invoked only below the quota, and a new MR is
counted. -/
theorem ibvRegMr_outcome (length : UInt64) (real : Option Nat) (hne : tenantId ≠ 0)
    (ht : tenantIdx? tenantId = some t)
    (henabled : rdmaInterceptIsEnabled (hooksInitOnce env v).proc = true)
    (hres : (getCurrentTenantId env (hooksInitOnce env v)).1 = tenantId)
    (hact : (ledger v.tenant t).status = .active) :
    ((ibvRegMr env length real v).1.invoked = true →
        (ledger v.tenant t).usage.mrCount.toUInt32 <
          (ledger v.tenant t).quota.maxMrPerTenant) ∧
      ((ibvRegMr env length real v).1.object.isSome → (ibvRegMr env length real v).1.invoked) ∧
      ledger (ibvRegMr env length real v).2.tenant t =
        if (ibvRegMr env length real v).1.object.isSome then
          withUsage (ledger v.tenant t) (countDelta .mr 1 (ledger v.tenant t).usage)
        else ledger v.tenant t := by
  have hinit : (getCurrentTenantId env (hooksInitOnce env v)).2.proc.tenantInitialized = true :=
    tenantInitialized_of_resolved (by rw [hres]; exact hne)
  have hledger : ledger (getCurrentTenantId env (hooksInitOnce env v)).2.tenant t =
      ledger v.tenant t := by
    rw [ledger_getCurrentTenantId, ledger_hooksInitOnce]
  have hcases := ibvRegMr_cases env length real v
  generalize ibvRegMr env length real v = result at hcases ⊢
  rw [← hledger] at hact
  cases hcases with
  | missing => simp [congrFun (ledger_hooksInitOnce env v) t]
  | passed hoff => simp [henabled] at hoff
  | overQuota | overRate => simp [hledger]
  | refused _ hcheck =>
      rw [hres] at hcheck
      have hbelow := mrCount_lt_of_check hne ht hinit hact hcheck
      rw [hledger] at hbelow
      exact ⟨fun _ => hbelow, by simp, by simp [hledger]⟩
  | registered mr _ hcheck =>
      rw [hres] at hcheck ⊢
      have hbelow := mrCount_lt_of_check hne ht hinit hact hcheck
      rw [← hledger]
      refine ⟨fun _ => hbelow, by simp, ?_⟩
      generalize (getCurrentTenantId env (hooksInitOnce env v)).2 = w at hinit hact ⊢
      have hinit' : (countOwnMr length (checkMrRateLimit env w.proc).2).tenantInitialized =
          true := (checkMrRateLimit_identity env w.proc).tenantInitialized.trans hinit
      simp only [updateTenantResourceCount]
      rw [if_neg (by simp [hne, hinit'])]
      simpa using ledger_rewriteUsage ht hact (countDelta .mr 1)

end Counting

/-! ## Settled processes -/

/-- An initialized process is not initialized again. -/
theorem hooksInitOnce_of_init (env : HookEnv) (h : v.proc.hooksInit = true) :
    hooksInitOnce env v = v := by
  unfold hooksInitOnce
  rw [if_pos h]

/-- Initialization has run in this process, not in a parent, and no cgroup
names a tenant. -/
structure Settled (env : HookEnv) (p : Process) : Prop where
  cgroup : env.cgroup = none
  hooksInit : p.hooksInit = true
  tenantInitialized : p.tenantInitialized = true
  cachedPid : p.cachedPid = p.pid

theorem Settled.hooksInitOnce (h : Settled env v.proc) :
    hooksInitOnce env v = v :=
  hooksInitOnce_of_init env h.hooksInit

/-- A settled process is looked up and nothing else happens. -/
theorem Settled.getCurrentTenantId (h : Settled env v.proc) :
    getCurrentTenantId env v = ((tenantGetProcessTenant v.proc.pid v.tenant).getD 0, v) := by
  have hcgroup : cgroupStep env v = v := by
    obtain ⟨proc, shm, tenant⟩ := v
    simp [cgroupStep, cgroupLines, h.cgroup, bindFromCgroup]
  have hfork : forkStep env v = v := by
    unfold forkStep
    rw [if_neg]
    simp [h.cachedPid]
  unfold RdmaHooks.getCurrentTenantId
  simp only [hcgroup, hfork]
  rw [if_pos h.tenantInitialized]

theorem Settled.resolved (h : Settled env v.proc)
    (hget : tenantGetProcessTenant v.proc.pid v.tenant = some tenantId) :
    RdmaHooks.getCurrentTenantId env v = (tenantId, v) := by
  rw [h.getCurrentTenantId, hget]
  rfl

section Settled

variable (h : Settled env v.proc) (henabled : rdmaInterceptIsEnabled v.proc = true)
  (hget : tenantGetProcessTenant v.proc.pid v.tenant = some tenantId) (hne : tenantId ≠ 0)
include h henabled hget hne

/-- Creating an object that only the tenant counts. -/
theorem Settled.createCounted (kind : ResourceKind) {found : RealVerbs → Bool}
    (hfound : found v.proc.realVerbs = true) (object : Nat) :
    createCounted kind found env (some object) v =
      (⟨some object, none, true⟩,
        { v with tenant := rewriteUsage tenantId (countDelta kind 1) v.tenant }) := by
  unfold RdmaHooks.createCounted
  simp only [h.hooksInitOnce, h.resolved hget]
  rw [if_neg (by simp [hfound]), if_neg (by simp [henabled])]
  simp [updateTenantResourceCount, hne, h.tenantInitialized]

/-- Destroying it. -/
theorem Settled.destroyCounted (kind : ResourceKind) {found : RealVerbs → Bool}
    (hfound : found v.proc.realVerbs = true) :
    destroyCounted kind found env 0 v =
      (⟨0, none, true⟩,
        { v with tenant := rewriteUsage tenantId (countDelta kind (-1)) v.tenant }) := by
  unfold RdmaHooks.destroyCounted
  simp only [h.hooksInitOnce, h.resolved hget]
  rw [if_neg (by simp [hfound]), if_neg (by simp [henabled])]
  simp [updateTenantResourceCount, hne, h.tenantInitialized]

/-- A settled process that passes the quota check registers the MR, and counts
it for itself and for its tenant. -/
theorem Settled.ibvRegMr (hfound : v.proc.realVerbs.regMr = true)
    (hrate : v.proc.intercept.config.enableMrRateLimit = false)
    (hcheck : checkTenantMrLimitInline tenantId length v = true) (mr : Nat) :
    ibvRegMr env length (some mr) v =
      (⟨some mr, none, true⟩, ⟨countOwnMr length v.proc, v.shm,
        rewriteUsage tenantId (countDelta .mr 1) v.tenant⟩) := by
  have hlimit : checkMrRateLimit env v.proc = (true, v.proc) := by
    simp [checkMrRateLimit, hrate]
  have hinit : (countOwnMr length v.proc).tenantInitialized = true := h.tenantInitialized
  unfold RdmaHooks.ibvRegMr
  simp only [h.hooksInitOnce, h.resolved hget]
  rw [if_neg (by simp [hfound]), if_neg (by simp [henabled]), if_neg (by simp [hcheck])]
  simp [hlimit, updateTenantResourceCount, hne, hinit]

end Settled

/-- A process after its initialization with the default configuration. -/
def settledProcess (pid : Int) : Process :=
  { Process.start pid with
    intercept := ⟨true, .default, 0, 0, 0⟩
    hooksInit := true
    realVerbs := ⟨true, true, true, true, true, true, true, true, true⟩
    shmMapped := true
    tenantInitialized := true
    cachedPid := pid }

/-- Nothing is set and nothing can be read. -/
def quietEnv : HookEnv where
  interceptInit := none
  libibverbs := none
  shmInit := false
  tenantShmInit := false
  cgroup := none
  rdmaTenantId := none
  rdmaInterceptMandatory := false
  stat := none
  clock := ⟨0, 0⟩
  clockAgain := ⟨0, 0⟩

theorem settledProcess_settled (pid : Int) : Settled quietEnv (settledProcess pid) :=
  ⟨rfl, rfl, rfl, rfl⟩

end MtRdma.Ports.RdmaHooks
