import MtRdma.Ports.TenantIsolation

/-!
# The life cycle of tenants

A tenant exists while its status is not INACTIVE.  The segment counts the
existing tenants, and every mapped pid should belong to one of them: a number
that is created again must not find processes of its predecessor in the map.

Creation and deletion keep both, the deletion because it sweeps the map.
`tenant_set_status` takes any status, INACTIVE included, and then retires the
tenant without the count and without the sweep.  The calls that keep the life
cycle are exactly the others.
-/

namespace MtRdma.Ports.SharedMemoryTenant

open Verified
open Verified.SlotScan
open Verified.Runs
open SharedMemory (Slot)

/-! ## The status column -/

/-- The status column of the tenant records. -/
def statuses (s : TenantSharedMemory) : TenantIdx → TenantStatus :=
  fun t => (s.tenants t).status

theorem statuses_of_ledger {s s' : TenantSharedMemory} (h : ledger s' = ledger s) :
    statuses s' = statuses s := by
  funext t
  exact congrArg Ledger.status (congrFun h t)

theorem statuses_setTenant (t : TenantIdx) (info : TenantInfo) (s : TenantSharedMemory) :
    statuses (setTenant t info s) = Function.update (statuses s) t info.status := by
  funext u
  by_cases hu : u = t
  · simp [statuses, setTenant, hu]
  · simp [statuses, setTenant, hu]

theorem statuses_retireTenant (t : TenantIdx) (s : TenantSharedMemory) :
    statuses (retireTenant t s) = Function.update (statuses s) t .inactive :=
  statuses_setTenant t _ s

theorem statuses_sweepMappings (tenantId : UInt32) (s : TenantSharedMemory) :
    statuses (sweepMappings tenantId s) = statuses s :=
  statuses_of_ledger (ledger_sweepMappings tenantId s)

theorem statuses_updateQuota (tenantId : UInt32) (quota : TenantQuota)
    (s : TenantSharedMemory) :
    statuses (tenantUpdateQuota tenantId quota s).2 = statuses s := by
  unfold tenantUpdateQuota
  split
  · rfl
  · rename_i t _
    split
    · rfl
    · rw [statuses_setTenant]
      exact Function.update_eq_self t (statuses s)

/-! ## What the calls can do -/

/-- A creation either fails and changes nothing, or fills the record of an
INACTIVE tenant and counts it. -/
theorem tenantCreate_cases (tenantId : UInt32) (name : Option (List UInt8))
    (quota : Option TenantQuota) (s : TenantSharedMemory) :
    tenantCreate tenantId name quota s = (-1, s) ∨
      ∃ t, tenantId ≠ 0 ∧ tenantIdx? tenantId = some t ∧ (s.tenants t).status = .inactive ∧
        tenantCreate tenantId name quota s =
          (0, { setTenant t (freshTenant tenantId name quota) s with
            activeTenantCount := s.activeTenantCount + 1 }) := by
  by_cases hne : tenantId = 0
  · exact .inl (if_pos hne)
  · cases ht : tenantIdx? tenantId with
    | none =>
        left
        simp [tenantCreate, hne, ht]
    | some t =>
        by_cases hst : (s.tenants t).status = .inactive
        · exact .inr ⟨t, hne, rfl, hst, tenantCreate_inactive hne ht hst name quota⟩
        · left
          simp [tenantCreate, hne, ht, hst]

/-- A change of status either fails and changes nothing, or overwrites the
status of an existing tenant. -/
theorem tenantSetStatus_cases (tenantId : UInt32) (status : TenantStatus)
    (s : TenantSharedMemory) :
    tenantSetStatus tenantId status s = (-1, s) ∨
      ∃ t, tenantIdx? tenantId = some t ∧ (s.tenants t).status ≠ .inactive ∧
        tenantSetStatus tenantId status s =
          (0, setTenant t { s.tenants t with status := status } s) := by
  cases ht : tenantIdx? tenantId with
  | none =>
      left
      simp [tenantSetStatus, ht]
  | some t =>
      by_cases hst : (s.tenants t).status = .inactive
      · left
        simp [tenantSetStatus, ht, hst]
      · right
        exact ⟨t, rfl, hst, by simp [tenantSetStatus, ht, hst]⟩

/-! ## The invariant -/

/-- A mapping entry is a hole or names an existing tenant. -/
def Homed (status : TenantIdx → TenantStatus) (m : PidTenantMapping) : Prop :=
  m.pid ≠ 0 → ∃ t, tenantIdx? m.tenantId = some t ∧ status t ≠ .inactive

theorem Homed.mono {status status' : TenantIdx → TenantStatus} {m : PidTenantMapping}
    (h : Homed status m) (hle : ∀ t, status t ≠ .inactive → status' t ≠ .inactive) :
    Homed status' m := by
  intro hpid
  obtain ⟨t, ht, hst⟩ := h hpid
  exact ⟨t, ht, hle t hst⟩

theorem Homed.hole (status : TenantIdx → TenantStatus) : Homed status ⟨0, 0⟩ :=
  fun hpid => absurd rfl hpid

/-- Every entry of the mapping array is a hole or names an existing tenant. -/
def AllHomed (s : TenantSharedMemory) : Prop :=
  ∀ i, Homed (statuses s) (s.pidMappings i)

/-- The count of tenants is exact, and every mapped pid has an existing
tenant. -/
structure Lifecycle (s : TenantSharedMemory) : Prop where
  count : s.activeTenantCount.toNat = (used .inactive (statuses s)).card
  homed : AllHomed s

/-! ## Mapped pids keep existing tenants -/

variable {s s' : TenantSharedMemory}

/-- Writing one entry that is homed, while no existing tenant is retired. -/
theorem AllHomed.update (h : AllHomed s) {i : Slot} {m : PidTenantMapping}
    (hstatus : statuses s' = statuses s) (hm : Homed (statuses s) m)
    (hmap : s'.pidMappings = Function.update s.pidMappings i m) : AllHomed s' := by
  intro j
  rw [hstatus, hmap]
  by_cases hj : j = i
  · rw [hj, Function.update_self]
    exact hm
  · rw [Function.update_of_ne hj]
    exact h j

theorem freshTenant_status_ne (tenantId : UInt32) (name : Option (List UInt8))
    (quota : Option TenantQuota) : (freshTenant tenantId name quota).status ≠ .inactive := by
  simp [freshTenant]

theorem AllHomed.zeroed : AllHomed zeroed :=
  fun _ => Homed.hole _

theorem AllHomed.create (h : AllHomed s) (tenantId : UInt32) (name : Option (List UInt8))
    (quota : Option TenantQuota) : AllHomed (tenantCreate tenantId name quota s).2 := by
  rcases tenantCreate_cases tenantId name quota s with hc | ⟨t, _, _, _, hc⟩
  · rw [hc]
    exact h
  · rw [hc]
    intro i
    refine (h i).mono ?_
    intro u hu
    show statuses (setTenant t (freshTenant tenantId name quota) s) u ≠ .inactive
    rw [statuses_setTenant]
    by_cases hut : u = t
    · rw [hut, Function.update_self]
      exact freshTenant_status_ne tenantId name quota
    · rw [Function.update_of_ne hut]
      exact hu

/-- The sweep of a deletion leaves no entry of the deleted tenant. -/
theorem AllHomed.delete (h : AllHomed s) (tenantId : UInt32) :
    AllHomed (tenantDelete tenantId s).2 := by
  rcases tenantDelete_cases tenantId s with hd | ⟨t, hne, ht, _, hd⟩
  · rw [hd]
    exact h
  · rw [hd]
    intro i
    rw [statuses_retireTenant, statuses_sweepMappings, retireTenant_pidMappings,
      sweepMappings_pidMappings hne]
    split
    · exact Homed.hole _
    · rename_i hother
      intro hpid
      obtain ⟨u, hu, hst⟩ := h i hpid
      have hut : u ≠ t := by
        rintro rfl
        exact hother (tenantIdx?_inj hu ht)
      exact ⟨u, hu, by rwa [Function.update_of_ne hut]⟩

theorem AllHomed.bind (h : AllHomed s) (pid : Int) (tenantId : UInt32) :
    AllHomed (tenantBindProcess pid tenantId s).2 := by
  have hactive : ∀ {t}, tenantIdx? tenantId = some t → (s.tenants t).status = .active →
      Homed (statuses s) ⟨pid, tenantId⟩ := by
    intro t ht hst _
    exact ⟨t, ht, by simp [statuses, hst]⟩
  have hstatus := statuses_of_ledger (ledger_bind pid tenantId s)
  have hout := tenantBindProcess_outcome pid tenantId s
  generalize tenantBindProcess pid tenantId s = r at hout hstatus
  cases hout with
  | refused _ => exact h
  | rebound hact _ =>
      obtain ⟨t, ht, hst⟩ := hact
      exact h.update hstatus (hactive ht hst) rfl
  | added ht hst _ _ => exact h.update hstatus (hactive ht hst) rfl
  | full _ _ _ => exact h

theorem AllHomed.unbind (h : AllHomed s) (pid : Int) :
    AllHomed (tenantUnbindProcess pid s).2 := by
  have hstatus := statuses_of_ledger (ledger_unbind pid s)
  rcases tenantUnbindProcess_cases pid s with ⟨_, hu⟩ | ⟨i, _, hu⟩
  · rw [hu]
    exact h
  · rw [hu] at hstatus ⊢
    exact h.update hstatus (Homed.hole _) rfl

/-! ## The count of tenants -/

/-- Calls that leave the status column and the count alone. -/
theorem Lifecycle.of_same_statuses (h : Lifecycle s) (hstatus : statuses s' = statuses s)
    (hcount : s'.activeTenantCount = s.activeTenantCount) (hhomed : AllHomed s') :
    Lifecycle s' := by
  refine ⟨?_, hhomed⟩
  rw [hcount, hstatus]
  exact h.count

theorem Lifecycle.zeroed : Lifecycle zeroed where
  count := by
    have hnone : used .inactive (statuses SharedMemoryTenant.zeroed) = ∅ := used_const _
    rw [hnone]
    rfl
  homed := AllHomed.zeroed

theorem Lifecycle.create (h : Lifecycle s) (tenantId : UInt32) (name : Option (List UInt8))
    (quota : Option TenantQuota) : Lifecycle (tenantCreate tenantId name quota s).2 := by
  refine ⟨?_, h.homed.create tenantId name quota⟩
  rcases tenantCreate_cases tenantId name quota s with hc | ⟨t, _, _, hst, hc⟩
  · rw [hc]
    exact h.count
  · rw [hc]
    show (s.activeTenantCount + 1).toNat =
      (used .inactive (statuses (setTenant t (freshTenant tenantId name quota) s))).card
    rw [statuses_setTenant]
    exact count_set_hole h.count (by decide) hst (freshTenant_status_ne tenantId name quota)

theorem sweepMappings_activeTenantCount (tenantId : UInt32) (s : TenantSharedMemory) :
    (sweepMappings tenantId s).activeTenantCount = s.activeTenantCount := by
  unfold sweepMappings
  refine foldl_invariant
    (P := fun s' : TenantSharedMemory => s'.activeTenantCount = s.activeTenantCount) rfl ?_ _
  intro s' i h
  unfold sweepStep
  split
  · exact h
  · exact h

theorem Lifecycle.delete (h : Lifecycle s) (tenantId : UInt32) :
    Lifecycle (tenantDelete tenantId s).2 := by
  refine ⟨?_, h.homed.delete tenantId⟩
  rcases tenantDelete_cases tenantId s with hd | ⟨t, _, _, hst, hd⟩
  · rw [hd]
    exact h.count
  · rw [hd]
    show ((sweepMappings tenantId s).activeTenantCount - 1).toNat = _
    rw [statuses_retireTenant, statuses_sweepMappings, sweepMappings_activeTenantCount]
    exact count_clear_slot h.count hst

/-- Changing the status of an existing tenant keeps the life cycle exactly when
the new status is not INACTIVE. -/
theorem Lifecycle.setTenant_status_iff (h : Lifecycle s) {t : TenantIdx}
    (hst : (s.tenants t).status ≠ .inactive) (status : TenantStatus) :
    Lifecycle (setTenant t { s.tenants t with status := status } s) ↔ status ≠ .inactive := by
  constructor
  · rintro hafter rfl
    -- the count still includes the tenant
    have hcard : (used .inactive (Function.update (statuses s) t .inactive)).card + 1 =
        (used .inactive (statuses s)).card := card_used_clear_slot hst
    have hcount := hafter.count
    rw [statuses_setTenant] at hcount
    have hbefore : s.activeTenantCount.toNat = _ := h.count
    have hsame : s.activeTenantCount.toNat =
        (used .inactive (Function.update (statuses s) t .inactive)).card := hcount
    omega
  · intro hne
    have hexists : ∀ u, Function.update (statuses s) t status u ≠ .inactive ↔
        statuses s u ≠ .inactive := by
      intro u
      by_cases hu : u = t
      · rw [hu, Function.update_self]
        exact iff_of_true hne hst
      · rw [Function.update_of_ne hu]
    have hused : used .inactive (Function.update (statuses s) t status) =
        used .inactive (statuses s) := by
      ext u
      rw [mem_used, mem_used]
      exact hexists u
    refine ⟨?_, ?_⟩
    · rw [statuses_setTenant, hused]
      exact h.count
    · intro i
      rw [statuses_setTenant]
      exact (h.homed i).mono fun u => (hexists u).mpr

/-- The call gives an existing tenant the status INACTIVE. -/
def SetsInactive (s : TenantSharedMemory) : TenantOp → Prop
  | .setStatus tenantId status =>
      status = .inactive ∧ ∃ t, tenantIdx? tenantId = some t ∧ (s.tenants t).status ≠ .inactive
  | _ => False

theorem Lifecycle.setStatus_iff (h : Lifecycle s) (tenantId : UInt32) (status : TenantStatus) :
    Lifecycle (tenantSetStatus tenantId status s).2 ↔
      ¬SetsInactive s (.setStatus tenantId status) := by
  rcases tenantSetStatus_cases tenantId status s with hc | ⟨t, ht, hst, hc⟩
  · rw [hc]
    refine iff_of_true h ?_
    rintro ⟨_, t, ht, hst⟩
    simp [tenantSetStatus, ht, hst] at hc
  · rw [hc, h.setTenant_status_iff hst]
    constructor
    · rintro hne ⟨hinactive, _⟩
      exact hne hinactive
    · intro hno hinactive
      exact hno ⟨hinactive, t, ht, hst⟩

theorem tenantBindProcess_activeTenantCount (pid : Int) (tenantId : UInt32)
    (s : TenantSharedMemory) :
    (tenantBindProcess pid tenantId s).2.activeTenantCount = s.activeTenantCount := by
  have hout := tenantBindProcess_outcome pid tenantId s
  generalize tenantBindProcess pid tenantId s = r at hout
  cases hout with
  | refused | rebound | added | full => rfl

theorem tenantUnbindProcess_activeTenantCount (pid : Int) (s : TenantSharedMemory) :
    (tenantUnbindProcess pid s).2.activeTenantCount = s.activeTenantCount := by
  rcases tenantUnbindProcess_cases pid s with ⟨_, hu⟩ | ⟨i, _, hu⟩
  · rw [hu]
  · rw [hu]
    show (releaseFromTenant pid i s).activeTenantCount = s.activeTenantCount
    unfold releaseFromTenant
    split
    · rfl
    · rfl

theorem tenantUpdateQuota_activeTenantCount (tenantId : UInt32) (quota : TenantQuota)
    (s : TenantSharedMemory) :
    (tenantUpdateQuota tenantId quota s).2.activeTenantCount = s.activeTenantCount := by
  unfold tenantUpdateQuota
  split
  · rfl
  · split
    · rfl
    · rfl

/-- **One call.**  The life cycle is kept by every call except the one that
makes an existing tenant INACTIVE without deleting it. -/
theorem Lifecycle.step_iff (h : Lifecycle s) (op : TenantOp) :
    Lifecycle (tenantApply s op).2 ↔ ¬SetsInactive s op := by
  cases op with
  | create tenantId name quota => exact iff_of_true (h.create tenantId name quota) id
  | delete tenantId => exact iff_of_true (h.delete tenantId) id
  | setStatus tenantId status => exact h.setStatus_iff tenantId status
  | updateQuota tenantId quota =>
      refine iff_of_true (h.of_same_statuses (statuses_updateQuota tenantId quota s)
        (tenantUpdateQuota_activeTenantCount tenantId quota s) ?_) id
      intro i
      show Homed (statuses (tenantUpdateQuota tenantId quota s).2) _
      rw [statuses_updateQuota, tenantApply, tenantUpdateQuota_pidMappings]
      exact h.homed i
  | bind pid tenantId =>
      exact iff_of_true (h.of_same_statuses (statuses_of_ledger (ledger_bind pid tenantId s))
        (tenantBindProcess_activeTenantCount pid tenantId s) (h.homed.bind pid tenantId)) id
  | unbind pid =>
      exact iff_of_true (h.of_same_statuses (statuses_of_ledger (ledger_unbind pid s))
        (tenantUnbindProcess_activeTenantCount pid s) (h.homed.unbind pid)) id

/-! ## Whole runs -/

/-- One call on the segment. -/
def TenantCall (s : TenantSharedMemory) (op : TenantOp) (s' : TenantSharedMemory) : Prop :=
  s' = (tenantApply s op).2

/-- Calls that make no existing tenant INACTIVE other than by deletion. -/
def DeletingCall (s : TenantSharedMemory) (op : TenantOp) (s' : TenantSharedMemory) : Prop :=
  ¬SetsInactive s op ∧ TenantCall s op s'

theorem lifecycle_run {ops : List TenantOp} (hrun : Run DeletingCall zeroed ops s) :
    Lifecycle s := by
  refine hrun.invariant Lifecycle.zeroed ?_
  rintro s₁ op s₂ h ⟨hkeeps, rfl⟩
  exact (h.step_iff op).mpr hkeeps

/-- **Tenants end by deletion.**  After any calls from the zeroed segment, none
of which makes an existing tenant INACTIVE through `tenant_set_status`, the
count of tenants is exact and every mapped pid belongs to an existing
tenant. -/
theorem lifecycle_of_deleting_calls {ops : List TenantOp}
    (hrun : Run DeletingCall zeroed ops s) :
    s.activeTenantCount.toNat =
        (Finset.univ.filter fun t => (s.tenants t).status ≠ .inactive).card ∧
      ∀ i, (s.pidMappings i).pid ≠ 0 →
        ∃ t, tenantIdx? (s.pidMappings i).tenantId = some t ∧
          (s.tenants t).status ≠ .inactive := by
  have h := lifecycle_run hrun
  exact ⟨h.count, h.homed⟩

/-- Tenant 1 is created and process 100 bound to it. -/
theorem soloTenant_run (quota : TenantQuota) :
    Run DeletingCall zeroed [.create 1 none (some quota), .bind ⟨100, by decide⟩ 1]
      (soloTenant 100 quota) :=
  .snoc (.snoc .start ⟨id, rfl⟩) ⟨id, rfl⟩

theorem lifecycle_of_deleting_calls_solo :
    (soloTenant 100 defaultQuota).activeTenantCount.toNat =
        (Finset.univ.filter fun t =>
          ((soloTenant 100 defaultQuota).tenants t).status ≠ .inactive).card ∧
      ∀ i, ((soloTenant 100 defaultQuota).pidMappings i).pid ≠ 0 →
        ∃ t, tenantIdx? ((soloTenant 100 defaultQuota).pidMappings i).tenantId = some t ∧
          ((soloTenant 100 defaultQuota).tenants t).status ≠ .inactive :=
  lifecycle_of_deleting_calls (soloTenant_run defaultQuota)

/-- Tenant 1 is made INACTIVE with process 100 still bound to it. -/
def abandonedTenant : TenantSharedMemory :=
  (tenantSetStatus 1 .inactive (soloTenant 100 defaultQuota)).2

theorem abandonedTenant_eq : abandonedTenant =
    setTenant 1 { (soloTenant 100 defaultQuota).tenants 1 with status := .inactive }
      (soloTenant 100 defaultQuota) := by
  have hst : ((soloTenant 100 defaultQuota).tenants 1).status = .active := by
    rw [soloTenant_eq (by decide)]
    rfl
  unfold abandonedTenant
  simp [tenantSetStatus, tenantIdx?_one, hst]

/-- Three calls leave one tenant counted and none existing, with a pid mapped
to it.  Created again, the tenant adopts the process, which its own list does
not have. -/
theorem inactive_tenant_keeps_processes :
    Run TenantCall zeroed
        [.create 1 none (some defaultQuota), .bind ⟨100, by decide⟩ 1, .setStatus 1 .inactive]
        abandonedTenant ∧
      abandonedTenant.activeTenantCount = 1 ∧
      (∀ t, (abandonedTenant.tenants t).status = .inactive) ∧
      tenantGetProcessTenant 100 abandonedTenant = some 1 ∧
      tenantGetProcessTenant 100 (tenantCreate 1 none none abandonedTenant).2 = some 1 ∧
      ((tenantCreate 1 none none abandonedTenant).2.tenants 1).processCount = 0 := by
  have hget : tenantGetProcessTenant 100 abandonedTenant = some 1 := by
    rw [abandonedTenant_eq]
    exact soloTenant_get (by decide) defaultQuota
  have hinactive : ∀ t, (abandonedTenant.tenants t).status = .inactive := by
    intro t
    show statuses abandonedTenant t = .inactive
    rw [abandonedTenant_eq, statuses_setTenant, soloTenant_eq (by decide)]
    by_cases ht : t = 1
    · rw [ht, Function.update_self]
    · rw [Function.update_of_ne ht]
      simp [statuses, setTenant, ht, zeroed, TenantInfo.zero]
  refine ⟨.snoc (.snoc (.snoc .start rfl) rfl) rfl, ?_, hinactive, hget, ?_, ?_⟩
  · rw [abandonedTenant_eq, soloTenant_eq (by decide)]
    rfl
  · rw [tenantGetProcessTenant_of_mappings (tenantCreate_pidMappings 1 none none _)]
    exact hget
  · rw [tenantCreate_inactive (by decide) tenantIdx?_one (hinactive 1)]
    simp [setTenant, freshTenant]

end MtRdma.Ports.SharedMemoryTenant
