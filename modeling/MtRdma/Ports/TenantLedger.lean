import MtRdma.Ports.TenantPidMap

/-!
# The ledger of a tenant

Status, quota and usage are the part of a tenant record that decides whether
an allocation is granted; names and process lists are not.  This file states,
operation by operation, what happens to the ledgers, so that later proofs
never look inside the operations again.
-/

namespace MtRdma.Ports.SharedMemoryTenant

open Verified.SlotScan
open SharedMemory (Slot)

variable {s : TenantSharedMemory} {tenantId : UInt32} {t : TenantIdx} {pid : Int}

/-- Status, quota and usage of a tenant. -/
structure Ledger where
  status : TenantStatus
  quota : TenantQuota
  usage : TenantResourceUsage
  deriving Repr, DecidableEq

/-- The ledger in the record of tenant `t`. -/
def ledger (s : TenantSharedMemory) (t : TenantIdx) : Ledger :=
  ⟨(s.tenants t).status, (s.tenants t).quota, (s.tenants t).usage⟩

/-- Rewriting one record rewrites one ledger. -/
theorem ledger_setTenant (t : TenantIdx) (info : TenantInfo) (s : TenantSharedMemory) :
    ledger (setTenant t info s) =
      Function.update (ledger s) t ⟨info.status, info.quota, info.usage⟩ := by
  funext t'
  by_cases ht : t' = t
  · subst ht
    simp [ledger, setTenant]
  · simp [ledger, setTenant, ht]

/-- A record rewritten outside its ledger. -/
theorem ledger_setTenant_same {info : TenantInfo} (hstatus : info.status = (s.tenants t).status)
    (hquota : info.quota = (s.tenants t).quota) (husage : info.usage = (s.tenants t).usage) :
    ledger (setTenant t info s) = ledger s := by
  rw [ledger_setTenant, hstatus, hquota, husage]
  exact Function.update_eq_self t (ledger s)

/-! ## New tenants -/

theorem tenantCreate_inactive (hne : tenantId ≠ 0) (ht : tenantIdx? tenantId = some t)
    (hst : (s.tenants t).status = .inactive) (name : Option (List UInt8))
    (quota : Option TenantQuota) :
    tenantCreate tenantId name quota s =
      (0, { setTenant t (freshTenant tenantId name quota) s with
        activeTenantCount := s.activeTenantCount + 1 }) := by
  simp [tenantCreate, hne, ht, hst]

/-- Tenant `tenantId` has the record `t`, is ACTIVE with `quota`, and has used
nothing. -/
structure FreshTenant (tenantId : UInt32) (t : TenantIdx) (quota : TenantQuota)
    (s : TenantSharedMemory) : Prop where
  ne_zero : tenantId ≠ 0
  idx : tenantIdx? tenantId = some t
  ledger_eq : ledger s t = ⟨.active, quota, .zero⟩

/-- A new quota for a tenant in use. -/
theorem ledger_updateQuota (ht : tenantIdx? tenantId = some t)
    (hst : (ledger s t).status ≠ .inactive) (quota : TenantQuota) :
    ledger (tenantUpdateQuota tenantId quota s).2 t = { ledger s t with quota := quota } := by
  have hst' : (s.tenants t).status ≠ .inactive := hst
  simp only [tenantUpdateQuota, ht]
  rw [if_neg hst', ledger_setTenant, Function.update_self]
  rfl

/-! ## Binding and unbinding leave all ledgers alone -/

theorem ledger_bind (pid : Int) (tenantId : UInt32) (s : TenantSharedMemory) :
    ledger (tenantBindProcess pid tenantId s).2 = ledger s := by
  have hout := tenantBindProcess_outcome pid tenantId s
  generalize tenantBindProcess pid tenantId s = r at hout
  cases hout with
  | refused | rebound => rfl
  | @added i t _ _ _ _ =>
      exact ledger_setTenant_same (t := t) (s := s) rfl rfl rfl
  | full _ _ _ => rfl

theorem ledger_unbind (pid : Int) (s : TenantSharedMemory) :
    ledger (tenantUnbindProcess pid s).2 = ledger s := by
  rcases tenantUnbindProcess_cases pid s with ⟨_, hu⟩ | ⟨i, _, hu⟩
  · rw [hu]
  · rw [hu]
    show ledger (releaseFromTenant pid i s) = ledger s
    unfold releaseFromTenant
    split
    · rename_i t _
      exact ledger_setTenant_same (t := t) (s := s) rfl rfl rfl
    · rfl

/-- The bind of a pid that is not mapped yet. -/
theorem tenantBindProcess_absent (pid : Int) {i : Slot} (ht : tenantIdx? tenantId = some t)
    (hact : (s.tenants t).status = .active) (habs : lookup (mappedPids s) pid = none)
    (hhole : lookup (mappedPids s) 0 = some i) :
    tenantBindProcess pid tenantId s =
      (0, { setTenant t (enrollProcess pid (s.tenants t)) s with
        pidMappings := Function.update s.pidMappings i ⟨pid, tenantId⟩
        totalProcessCount := s.totalProcessCount + 1 }) := by
  simp [tenantBindProcess, ht, hact, scan_eq_lookup habs, hhole]

/-! ## Looking up after a bind -/

/-- The store would bind `pid` to `tenantId`. -/
def Bindable (s : TenantSharedMemory) (pid : Int) (tenantId : UInt32) : Prop :=
  ActiveTenant s tenantId ∧ ((∃ i, mappedPids s i = pid) ∨ ∃ i, mappedPids s i = 0)

theorem bind_failed (h : ¬Bindable s pid tenantId) :
    tenantBindProcess pid tenantId s = (-1, s) := by
  have hrc := mt (tenantBindProcess_eq_zero_iff pid tenantId s).mp h
  have hout := tenantBindProcess_outcome pid tenantId s
  generalize tenantBindProcess pid tenantId s = r at hrc hout ⊢
  cases hout with
  | refused _ => rfl
  | rebound | added => exact absurd rfl hrc
  | full _ _ _ => rfl

/-- A successful bind is what the next lookup finds. -/
theorem get_after_bind (h : Bindable s pid tenantId) :
    (tenantBindProcess pid tenantId s).1 = 0 ∧
      tenantGetProcessTenant pid (tenantBindProcess pid tenantId s).2 = some tenantId := by
  have hrc := (tenantBindProcess_eq_zero_iff pid tenantId s).mpr h
  refine ⟨hrc, ?_⟩
  have hout := tenantBindProcess_outcome pid tenantId s
  generalize tenantBindProcess pid tenantId s = r at hrc hout ⊢
  unfold tenantGetProcessTenant
  cases hout with
  | refused | full => cases hrc
  | @rebound i _ hl =>
      have hkeys : mappedPids { s with
          pidMappings := Function.update s.pidMappings i ⟨pid, tenantId⟩ } = mappedPids s := by
        rw [mappedPids_update s i ⟨pid, tenantId⟩ _ rfl]
        exact Function.update_eq_self_iff.mpr (lookup_some hl).symm
      rw [hkeys, hl]
      simp
  | @added i t _ _ hl hh =>
      rw [mappedPids_update s i ⟨pid, tenantId⟩ _ rfl, lookup_set_hole hl]
      simp

theorem activeTenant_bind (pid : Int) (n m : UInt32) (s : TenantSharedMemory) :
    ActiveTenant (tenantBindProcess pid n s).2 m ↔ ActiveTenant s m := by
  have hstatus : ∀ t, ((tenantBindProcess pid n s).2.tenants t).status = (s.tenants t).status :=
    fun t => congrArg (fun l : TenantIdx → Ledger => (l t).status) (ledger_bind pid n s)
  unfold ActiveTenant
  simp only [hstatus]

theorem mapped_of_get {n : UInt32} (h : tenantGetProcessTenant pid s = some n) :
    ∃ i, mappedPids s i = pid := by
  obtain ⟨i, hi, _⟩ := Option.map_eq_some_iff.mp h
  exact ⟨i, lookup_some hi⟩

/-- A bind is invisible to other pids. -/
theorem get_after_bind_ne (s : TenantSharedMemory) {q : Int} (tenantId : UInt32) (hne : q ≠ pid)
    (hq : q ≠ 0) :
    tenantGetProcessTenant q (tenantBindProcess pid tenantId s).2 =
      tenantGetProcessTenant q s := by
  -- a slot that `q` does not occupy, before or after, is written
  have hwrite : ∀ (i : Slot) (s' : TenantSharedMemory), mappedPids s i ≠ q →
      s'.pidMappings = Function.update s.pidMappings i ⟨pid, tenantId⟩ →
      tenantGetProcessTenant q s' = tenantGetProcessTenant q s := by
    intro i s' hold hs'
    unfold tenantGetProcessTenant
    rw [mappedPids_update s i _ s' hs', lookup_update_ne hold hne.symm, hs']
    cases hl : lookup (mappedPids s) q with
    | none => rfl
    | some j =>
        have hj : j ≠ i := by
          intro hji
          exact hold (hji ▸ lookup_some hl)
        simp [hj]
  have hout := tenantBindProcess_outcome pid tenantId s
  generalize tenantBindProcess pid tenantId s = r at hout ⊢
  cases hout with
  | refused | full => rfl
  | @rebound i _ hl =>
      apply hwrite i
      · rw [lookup_some hl]
        exact hne.symm
      · rfl
  | @added i t _ _ _ hh =>
      apply hwrite i
      · rw [lookup_some hh]
        exact hq.symm
      · rfl

/-! ## Reading and writing usage -/

theorem tenantGetResourceUsage_active (ht : tenantIdx? tenantId = some t)
    (hact : (s.tenants t).status = .active) :
    tenantGetResourceUsage tenantId s = some (s.tenants t).usage := by
  simp [tenantGetResourceUsage, ht, hact]

theorem tenantUpdateResourceUsage_active (ht : tenantIdx? tenantId = some t)
    (hact : (s.tenants t).status = .active) (usage : TenantResourceUsage) :
    tenantUpdateResourceUsage tenantId usage s =
      (0, setTenant t { s.tenants t with usage := usage } s) := by
  simp [tenantUpdateResourceUsage, ht, hact]

/-- A write of the usage reaches the ledger of an ACTIVE tenant and nothing
else. -/
theorem tenantUpdateResourceUsage_frame (tenantId : UInt32) (usage : TenantResourceUsage)
    (s : TenantSharedMemory) :
    (tenantUpdateResourceUsage tenantId usage s).2.pidMappings = s.pidMappings := by
  unfold tenantUpdateResourceUsage
  split
  · rfl
  · split <;> rfl

theorem PidMapWf.updateUsage (h : PidMapWf s) (tenantId : UInt32) (usage : TenantResourceUsage) :
    PidMapWf (tenantUpdateResourceUsage tenantId usage s).2 := by
  unfold tenantUpdateResourceUsage
  split
  · exact h
  · split
    · exact h
    · rename_i t _ _
      exact h.of_same_mappings rfl rfl (h.tenant_zero_set (h.tenant_zero t))

/-! ## The atomic reservation -/

/-- The outcomes of `tenant_try_allocate_qp` on an ACTIVE tenant: the clamped
count is compared with the quota, and one unit is taken if it is below. -/
theorem tenantTryAllocateQp_active (ht : tenantIdx? tenantId = some t)
    (hact : (s.tenants t).status = .active) :
    tenantTryAllocateQp tenantId s =
      if (s.tenants t).quota.maxQpPerTenant ≤ (clampQp (s.tenants t).usage).qpCount.toUInt32 then
        (false, setTenant t { s.tenants t with usage := clampQp (s.tenants t).usage } s)
      else
        (true, setTenant t
          { s.tenants t with usage := reserveQp (clampQp (s.tenants t).usage) } s) := by
  simp [tenantTryAllocateQp, ht, hact]

theorem tenantTryAllocateQp_frame (tenantId : UInt32) (s : TenantSharedMemory) :
    (tenantTryAllocateQp tenantId s).2.pidMappings = s.pidMappings := by
  unfold tenantTryAllocateQp
  split
  · rfl
  · split
    · rfl
    · simp only
      split <;> rfl

/-- The answer for a pid depends on the mapping array only. -/
theorem tenantGetProcessTenant_of_mappings {s' : TenantSharedMemory}
    (h : s'.pidMappings = s.pidMappings) (pid : Int) :
    tenantGetProcessTenant pid s' = tenantGetProcessTenant pid s := by
  unfold tenantGetProcessTenant mappedPids
  rw [h]

/-! ## A store with one tenant and one process -/

/-- Tenant 1 is created with `quota` in an empty store, and `pid` bound to
it. -/
def soloTenant (pid : Int) (quota : TenantQuota) : TenantSharedMemory :=
  (tenantBindProcess pid 1 (tenantCreate 1 none (some quota) zeroed).2).2

theorem tenantIdx?_one : tenantIdx? 1 = some 1 := by decide

/-- The record of tenant 1 and the mapping array of that store. -/
theorem soloTenant_eq (hpid : pid ≠ 0) (quota : TenantQuota) :
    soloTenant pid quota =
      { setTenant 1 (enrollProcess pid (freshTenant 1 none (some quota))) zeroed with
        pidMappings := Function.update zeroed.pidMappings 0 ⟨pid, 1⟩
        activeTenantCount := 1
        totalProcessCount := 1 } := by
  have hcreate := tenantCreate_inactive (s := zeroed) (by decide) tenantIdx?_one rfl none
    (some quota)
  have hpids : mappedPids (tenantCreate 1 none (some quota) zeroed).2 = fun _ => 0 := by
    rw [hcreate]
    rfl
  have hact : ((tenantCreate 1 none (some quota) zeroed).2.tenants 1).status = .active := by
    simp [hcreate, setTenant, freshTenant]
  have hbind := tenantBindProcess_absent pid (i := 0) tenantIdx?_one hact
    (by rw [hpids, lookup_eq_none_iff]; exact fun _ => hpid.symm)
    (by rw [hpids]; exact lookup_first rfl)
  unfold soloTenant
  rw [hbind, hcreate]
  simp [setTenant, zeroed]

theorem soloTenant_get (hpid : pid ≠ 0) (quota : TenantQuota) :
    tenantGetProcessTenant pid (soloTenant pid quota) = some 1 := by
  have hfirst : mappedPids (soloTenant pid quota) 0 = pid := by
    simp [mappedPids, soloTenant_eq hpid]
  unfold tenantGetProcessTenant
  rw [lookup_first hfirst]
  simp [soloTenant_eq hpid]

theorem soloTenant_fresh (hpid : pid ≠ 0) (quota : TenantQuota) :
    FreshTenant 1 1 quota (soloTenant pid quota) := by
  refine ⟨by decide, tenantIdx?_one, ?_⟩
  simp [ledger, soloTenant_eq hpid, setTenant, enrollProcess, freshTenant]

theorem soloTenant_record (hpid : pid ≠ 0) (quota : TenantQuota) :
    ((soloTenant pid quota).tenants 1).status = .active ∧
      ((soloTenant pid quota).tenants 1).quota = quota ∧
      ((soloTenant pid quota).tenants 1).usage = .zero :=
  Ledger.mk.inj (soloTenant_fresh hpid quota).ledger_eq

/-- Tenants 1 and 2 are ACTIVE, and process 100 is bound to tenant 1. -/
def twoTenants : TenantSharedMemory :=
  (tenantCreate 2 none none (soloTenant 100 defaultQuota)).2

theorem twoTenants_eq :
    twoTenants =
      { setTenant 2 (freshTenant 2 none none) (soloTenant 100 defaultQuota) with
        activeTenantCount := (soloTenant 100 defaultQuota).activeTenantCount + 1 } := by
  unfold twoTenants
  rw [tenantCreate_inactive (t := 2) (by decide) (by decide)
    (by rw [soloTenant_eq (by decide)]; rfl)]

theorem twoTenants_bindable : Bindable twoTenants 100 1 := by
  refine ⟨⟨1, tenantIdx?_one, ?_⟩, .inl ⟨0, ?_⟩⟩
  · rw [twoTenants_eq, soloTenant_eq (by decide)]
    rfl
  · rw [twoTenants_eq, soloTenant_eq (by decide)]
    rfl

theorem twoTenants_active : ActiveTenant twoTenants 2 := by
  refine ⟨2, by decide, ?_⟩
  rw [twoTenants_eq]
  rfl

end MtRdma.Ports.SharedMemoryTenant
