import MtRdma.Ports.HookSpec

/-!
# What a QP hook leaves alone

A hook works for its own process.  It may bind that process and publish its
usage, but the tenants of other processes and the other entries of the process
table stay as they are; only a first call, which may find the table apparently
new and initialize it, reaches further.
-/

namespace MtRdma.Ports.RdmaHooks

open SharedMemory
open SharedMemoryTenant

/-! ## Resolution -/

/-- A resolved process is looked up once more at the end of the resolution. -/
theorem get_of_resolved {env : HookEnv} {v : View} (h : (getCurrentTenantId env v).1 ≠ 0) :
    tenantGetProcessTenant (getCurrentTenantId env v).2.proc.pid
      (getCurrentTenantId env v).2.tenant = some (getCurrentTenantId env v).1 := by
  unfold getCurrentTenantId at h ⊢
  simp only at h ⊢
  split
  · rename_i hinit
    rw [if_pos hinit] at h
    generalize tenantGetProcessTenant _ _ = answer at h ⊢
    cases answer with
    | none => exact absurd rfl h
    | some tenantId => rfl
  · rename_i hinit
    rw [if_neg hinit] at h
    exact absurd rfl h

theorem latchMandatory_view (env : HookEnv) (v : View) :
    ∃ m, (latchMandatory env v).2 = { v with proc := { v.proc with mandatory := m } } := by
  unfold latchMandatory
  split
  · exact ⟨v.proc.mandatory, rfl⟩
  · exact ⟨_, rfl⟩

theorem tenantStep_bound {env : HookEnv} {v : View} (h : (getCurrentTenantId env v).1 ≠ 0) :
    tenantStep env v =
      (if (tenantTryAllocateQp (getCurrentTenantId env v).1
            (getCurrentTenantId env v).2.tenant).1
        then some (true, (getCurrentTenantId env v).1) else none,
        { (latchMandatory env (getCurrentTenantId env v).2).2 with
          tenant := (tenantTryAllocateQp (getCurrentTenantId env v).1
            (getCurrentTenantId env v).2.tenant).2 }) := by
  have hinit := tenantInitialized_of_resolved h
  unfold tenantStep
  simp only
  rw [if_pos ⟨h, hinit⟩, checkTenantQpLimit_bound h hinit]

/-! ## The frame of a call -/

/-- What a call of a process that resolves to `tenantId` may change outside
the ledgers. -/
structure QpMove (tenantId : UInt32) (v v' : View) : Prop where
  pid : v'.proc.pid = v.proc.pid
  hooksInit : v'.proc.hooksInit = v.proc.hooksInit
  others : ∀ q, q ≠ v.proc.pid → q ≠ 0 →
    tenantGetProcessTenant q v'.tenant = tenantGetProcessTenant q v.tenant
  own : tenantGetProcessTenant v.proc.pid v'.tenant = some tenantId ∨
    tenantGetProcessTenant v.proc.pid v'.tenant = tenantGetProcessTenant v.proc.pid v.tenant
  table : v'.shm = v.shm ∨ ∃ usage start,
    v'.shm = (shmUpdateProcessResources v.proc.pid usage start v.shm).2

theorem QpMove.refl (tenantId : UInt32) (v : View) : QpMove tenantId v v :=
  ⟨rfl, rfl, fun _ _ _ => rfl, .inr rfl, .inl rfl⟩

section Moves

variable {env : HookEnv} {v : View} {tenantId : UInt32}

theorem get_getCurrentTenantId_ne (env : HookEnv) (v : View) {q : Int} (hne : q ≠ v.proc.pid)
    (hq : q ≠ 0) : tenantGetProcessTenant q (getCurrentTenantId env v).2.tenant =
      tenantGetProcessTenant q v.tenant :=
  getCurrentTenantId_invariant
    (P := fun s => tenantGetProcessTenant q s = tenantGetProcessTenant q v.tenant)
    (fun tenantId s h => (get_after_bind_ne s tenantId hne hq).trans h) env rfl

theorem get_hooksInitOnce_ne (env : HookEnv) (v : View) {q : Int} (hne : q ≠ v.proc.pid)
    (hq : q ≠ 0) : tenantGetProcessTenant q (hooksInitOnce env v).tenant =
      tenantGetProcessTenant q v.tenant :=
  hooksInitOnce_invariant
    (P := fun s => tenantGetProcessTenant q s = tenantGetProcessTenant q v.tenant)
    (fun tenantId s h => (get_after_bind_ne s tenantId hne hq).trans h) env rfl

/-- A call that resolves its tenant and then leaves the mapping array alone. -/
theorem move_of_resolved {v' : View} (hne : tenantId ≠ 0)
    (hres : (getCurrentTenantId env v).1 = tenantId) (hpid : v'.proc.pid = v.proc.pid)
    (hinit : v'.proc.hooksInit = v.proc.hooksInit)
    (hmap : v'.tenant.pidMappings = (getCurrentTenantId env v).2.tenant.pidMappings)
    (htable : v'.shm = v.shm ∨ ∃ usage start,
      v'.shm = (shmUpdateProcessResources v.proc.pid usage start v.shm).2) :
    QpMove tenantId v v' ∧ tenantGetProcessTenant v.proc.pid v'.tenant = some tenantId := by
  obtain ⟨ready, cachedPid, s, hview⟩ := getCurrentTenantId_view env v
  have hown : tenantGetProcessTenant v.proc.pid v'.tenant = some tenantId := by
    have hbound : (getCurrentTenantId env v).1 ≠ 0 := hres ▸ hne
    have hget := get_of_resolved hbound
    rw [tenantGetProcessTenant_of_mappings hmap, ← hres, ← hget, hview]
  refine ⟨⟨hpid, hinit, ?_, .inl hown, htable⟩, hown⟩
  intro q hq hq0
  rw [tenantGetProcessTenant_of_mappings hmap]
  exact get_getCurrentTenantId_ne env v hq hq0

/-- The tenant step of a resolved process: the mapping array is as resolution
left it, and of the process only flags have changed. -/
theorem tenantStep_view (h : (getCurrentTenantId env v).1 ≠ 0) :
    (tenantStep env v).2.tenant.pidMappings =
        (getCurrentTenantId env v).2.tenant.pidMappings ∧
      ∃ ready cachedPid m s, (tenantStep env v).2 =
        { v with
          proc := { v.proc with tenantInitialized := ready, cachedPid := cachedPid, mandatory := m }
          tenant := s } := by
  obtain ⟨m, hlatch⟩ := latchMandatory_view env (getCurrentTenantId env v).2
  obtain ⟨ready, cachedPid, s, hview⟩ := getCurrentTenantId_view env v
  have hframe := tenantTryAllocateQp_frame (getCurrentTenantId env v).1
    (getCurrentTenantId env v).2.tenant
  rw [tenantStep_bound h]
  generalize tenantTryAllocateQp _ _ = tried at hframe ⊢
  refine ⟨hframe, ready, cachedPid, m, tried.2, ?_⟩
  rw [hlatch, hview]

theorem createForTenant_move (real : QpInitAttr → Option Nat) (attr : QpInitAttr)
    (hne : tenantId ≠ 0) (hres : (getCurrentTenantId env v).1 = tenantId) :
    QpMove tenantId v (createForTenant env real attr v).2 ∧
      tenantGetProcessTenant v.proc.pid (createForTenant env real attr v).2.tenant =
        some tenantId := by
  have hbound : (getCurrentTenantId env v).1 ≠ 0 := hres ▸ hne
  have hstep := tenantStep_view hbound
  obtain ⟨hmap, ready, cachedPid, m, s, hview⟩ := hstep
  have hcases := createForTenant_cases env real attr v
  generalize createForTenant env real attr v = result at hcases ⊢
  rw [hview] at hmap
  cases hcases with
  | denied =>
      rw [hview]
      exact move_of_resolved hne hres rfl rfl hmap (.inl rfl)
  | created =>
      rw [hview]
      unfold publish
      simp only
      split
      · exact move_of_resolved hne hres rfl rfl hmap (.inr ⟨_, _, rfl⟩)
      · exact move_of_resolved hne hres rfl rfl hmap (.inl rfl)
  | failed =>
      rw [hview]
      split
      · exact move_of_resolved hne hres rfl rfl ((rewriteUsage_frame _ _ _).trans hmap) (.inl rfl)
      · exact move_of_resolved hne hres rfl rfl hmap (.inl rfl)

theorem ibvCreateQp_move (real : QpInitAttr → Option Nat) (attr : QpInitAttr)
    (hne : tenantId ≠ 0)
    (henabled : rdmaInterceptIsEnabled (hooksInitOnce env v).proc = true)
    (hres : (getCurrentTenantId env (hooksInitOnce env v)).1 = tenantId) :
    QpMove tenantId (hooksInitOnce env v) (ibvCreateQp env real attr v).2 ∧
      ((ibvCreateQp env real attr v).1.qp.isSome →
        tenantGetProcessTenant (hooksInitOnce env v).proc.pid
          (ibvCreateQp env real attr v).2.tenant = some tenantId) := by
  have hcases := ibvCreateQp_cases env real attr v
  generalize ibvCreateQp env real attr v = result at hcases ⊢
  cases hcases with
  | missing | refused => exact ⟨.refl _ _, nofun⟩
  | passed _ hoff => simp [henabled] at hoff
  | checked => exact (createForTenant_move _ attr hne hres).imp_right fun h _ => h

/-- The end of a destroying hook: the process's own counters have moved, which
resolution does not see, and the tenant's count follows. -/
theorem uncount_move (kind : ResourceKind) {p : Process} (hsame : SameIdentity v.proc p)
    (hinit : p.hooksInit = v.proc.hooksInit) (hne : tenantId ≠ 0)
    (hres : (getCurrentTenantId env v).1 = tenantId) :
    QpMove tenantId v (updateTenantResourceCount (getCurrentTenantId env { v with proc := p }).1
      kind (-1) (getCurrentTenantId env { v with proc := p }).2) := by
  obtain ⟨_, htenant⟩ := getCurrentTenantId_congr env (v := v) (w := { v with proc := p }) hsame rfl
  obtain ⟨ready, cachedPid, s, hview⟩ := getCurrentTenantId_view env { v with proc := p }
  generalize getCurrentTenantId env { v with proc := p } = resolved at htenant hview ⊢
  obtain ⟨resolvedId, resolvedView⟩ := resolved
  simp only at htenant hview ⊢
  subst hview
  have hmap : s.pidMappings = (getCurrentTenantId env v).2.tenant.pidMappings :=
    congrArg TenantSharedMemory.pidMappings htenant
  unfold updateTenantResourceCount
  split
  · exact And.left (move_of_resolved hne hres hsame.pid hinit hmap (.inl rfl))
  · exact And.left (move_of_resolved hne hres hsame.pid hinit
      ((rewriteUsage_frame _ _ _).trans hmap) (.inl rfl))

theorem ibvDestroyQp_move (real : Int) (hne : tenantId ≠ 0)
    (hres : (getCurrentTenantId env (hooksInitOnce env v)).1 = tenantId) :
    QpMove tenantId (hooksInitOnce env v) (ibvDestroyQp env real v).2 := by
  unfold ibvDestroyQp
  simp only
  generalize hooksInitOnce env v = w at hres ⊢
  split
  · exact .refl _ _
  · split
    · exact .refl _ _
    · split
      · exact uncount_move .qp ⟨rfl, rfl, rfl⟩ rfl hne hres
      · exact .refl _ _

theorem ibvRegMr_move (length : UInt64) (real : Option Nat) (hne : tenantId ≠ 0)
    (henabled : rdmaInterceptIsEnabled (hooksInitOnce env v).proc = true)
    (hres : (getCurrentTenantId env (hooksInitOnce env v)).1 = tenantId) :
    QpMove tenantId (hooksInitOnce env v) (ibvRegMr env length real v).2 ∧
      ((ibvRegMr env length real v).1.object.isSome →
        tenantGetProcessTenant (hooksInitOnce env v).proc.pid
          (ibvRegMr env length real v).2.tenant = some tenantId) := by
  have hcases := ibvRegMr_cases env length real v
  generalize ibvRegMr env length real v = result at hcases ⊢
  generalize hooksInitOnce env v = w at hcases henabled hres ⊢
  obtain ⟨ready, cachedPid, s, hview⟩ := getCurrentTenantId_view env w
  obtain ⟨start, count, hlimited⟩ :=
    checkMrRateLimit_view env (getCurrentTenantId env w).2.proc
  have hmoved : ∀ {v' : View} {p : Prop},
      v'.proc.pid = (getCurrentTenantId env w).2.proc.pid →
      v'.proc.hooksInit = (getCurrentTenantId env w).2.proc.hooksInit →
      v'.shm = (getCurrentTenantId env w).2.shm →
      v'.tenant.pidMappings = (getCurrentTenantId env w).2.tenant.pidMappings →
      QpMove tenantId w v' ∧
        (p → tenantGetProcessTenant w.proc.pid v'.tenant = some tenantId) := by
    intro v' p hpid hinit hshm hmap
    rw [hview] at hpid hinit hshm
    have hmove := move_of_resolved hne hres hpid hinit hmap (.inl hshm)
    exact ⟨hmove.1, fun _ => hmove.2⟩
  cases hcases with
  | missing => exact ⟨.refl _ _, nofun⟩
  | passed hoff => simp [henabled] at hoff
  | overQuota => exact hmoved rfl rfl rfl rfl
  | overRate | refused =>
      rw [hlimited]
      exact hmoved rfl rfl rfl rfl
  | registered =>
      simp only [hlimited, updateTenantResourceCount]
      split
      · exact hmoved rfl rfl rfl rfl
      · exact hmoved rfl rfl rfl (rewriteUsage_frame _ _ _)

theorem ibvDeregMr_move (length : UInt64) (real : Int) (hne : tenantId ≠ 0)
    (hres : (getCurrentTenantId env (hooksInitOnce env v)).1 = tenantId) :
    QpMove tenantId (hooksInitOnce env v) (ibvDeregMr env length real v).2 := by
  have hcases := ibvDeregMr_cases env length real v
  generalize ibvDeregMr env length real v = result at hcases ⊢
  generalize hooksInitOnce env v = w at hcases hres ⊢
  obtain ⟨start, count, hlimited⟩ := checkMrRateLimit_view env w.proc
  cases hcases with
  | missing | passed => exact .refl _ _
  | overRate | refused =>
      rw [hlimited]
      exact ⟨rfl, rfl, fun _ _ _ => rfl, .inr rfl, .inl rfl⟩
  | deregistered u _ hu =>
      rw [hlimited] at hu
      subst hu
      exact uncount_move .mr ⟨rfl, rfl, rfl⟩ rfl hne hres

end Moves

/-! ## With the once-only initialization -/

theorem hooksInitOnce_view (env : HookEnv) (v : View) :
    (hooksInitOnce env v).proc.pid = v.proc.pid ∧
      (hooksInitOnce env v).proc.hooksInit = true ∧
      ((hooksInitOnce env v).shm = v.shm ∨
        (v.proc.hooksInit = false ∧ (hooksInitOnce env v).shm = shmInit v.shm)) := by
  unfold hooksInitOnce
  split
  · rename_i hinit
    exact ⟨rfl, hinit, .inl rfl⟩
  · rename_i hinit
    unfold initFunctionPointers
    simp only
    split
    · exact ⟨rfl, rfl, .inl rfl⟩
    · refine ⟨rfl, rfl, ?_⟩
      simp only
      split
      · exact .inr ⟨Bool.eq_false_of_not_eq_true hinit, rfl⟩
      · exact .inl rfl

/-- The frame of a whole call, from the state before it. -/
structure QpCallFrame (tenantId : UInt32) (v v' : View) : Prop where
  pid : v'.proc.pid = v.proc.pid
  hooksInit : v'.proc.hooksInit = true
  others : ∀ q, q ≠ v.proc.pid → q ≠ 0 →
    tenantGetProcessTenant q v'.tenant = tenantGetProcessTenant q v.tenant
  own : v.proc.hooksInit = true →
    tenantGetProcessTenant v.proc.pid v.tenant = some tenantId →
    tenantGetProcessTenant v.proc.pid v'.tenant = some tenantId
  table : ∃ s, (s = v.shm ∨ (v.proc.hooksInit = false ∧ s = shmInit v.shm)) ∧
    (v'.shm = s ∨ ∃ usage start,
      v'.shm = (shmUpdateProcessResources v.proc.pid usage start s).2)

theorem QpMove.callFrame {env : HookEnv} {tenantId : UInt32} {v v' : View}
    (h : QpMove tenantId (hooksInitOnce env v) v') : QpCallFrame tenantId v v' := by
  obtain ⟨hpid, hinit, hshm⟩ := hooksInitOnce_view env v
  refine ⟨h.pid.trans hpid, h.hooksInit.trans hinit, ?_, ?_, ?_⟩
  · intro q hq hq0
    rw [h.others q (by rw [hpid]; exact hq) hq0]
    exact get_hooksInitOnce_ne env v hq hq0
  · intro hdone hget
    rw [hooksInitOnce_of_init env hdone] at h
    rcases h.own with hown | hown
    · exact hown
    · exact hown.trans hget
  · have htable := h.table
    rw [hpid] at htable
    exact ⟨(hooksInitOnce env v).shm, hshm, htable⟩

end MtRdma.Ports.RdmaHooks
