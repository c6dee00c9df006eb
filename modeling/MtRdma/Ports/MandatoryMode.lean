import MtRdma.Ports.HookFrame

/-!
# Mandatory mode

`check_tenant_qp_limit` denies a creation in mandatory mode when the process
has no tenant.  Both creation paths call it only for a process that has one,
so the denial is never reached: a process without a tenant gets its QP, in
mandatory mode and out of it.  A creation is covered by a quota exactly when
it is refused earlier or the process resolves to a tenant.
-/

namespace MtRdma.Ports.RdmaHooks

open Verified.SlotScan
open SharedMemory (Slot)
open SharedMemoryTenant

variable {s : TenantSharedMemory} {env : HookEnv}

/-! ## Which processes resolve to a tenant -/

/-- `tenant_get_process_tenant` answers with a non-zero tenant. -/
def Mapped (s : TenantSharedMemory) (pid : Int) : Prop :=
  ∃ tenantId, tenantGetProcessTenant pid s = some tenantId ∧ tenantId ≠ 0

/-- Some line of `/proc/self/cgroup` names a tenant that accepts the process. -/
def CgroupAdmits (env : HookEnv) (v : View) : Prop :=
  tenantShmReady env v.proc = true ∧
    ∃ line ∈ cgroupLines env, cgroupTenant line ≠ 0 ∧
      Bindable v.tenant v.proc.pid (cgroupTenant line)

/-- `RDMA_TENANT_ID` names a tenant that accepts the process. -/
def EnvAdmits (env : HookEnv) (v : View) : Prop :=
  ∃ text, env.rdmaTenantId = some text ∧
    (MtRdma.Verified.CText.atoi text).toUInt32 ≠ 0 ∧
      Bindable v.tenant v.proc.pid (MtRdma.Verified.CText.atoi text).toUInt32

/-- The process has a tenant by its cgroup, by its environment after a fork,
or by an earlier binding.  The environment is not looked at again in a process
whose pid has not changed. -/
def Resolvable (env : HookEnv) (v : View) : Prop :=
  CgroupAdmits env v ∨
    (v.proc.tenantInitialized = true ∧
      ((v.proc.pid ≠ v.proc.cachedPid ∧ EnvAdmits env v) ∨ Mapped v.tenant v.proc.pid))

theorem mapped_iff (s : TenantSharedMemory) (pid : Int) :
    Mapped s pid ↔ (tenantGetProcessTenant pid s).getD 0 ≠ 0 := by
  unfold Mapped
  cases tenantGetProcessTenant pid s with
  | none | some => simp

theorem bindFromCgroup_refused {ready : Bool} {pid : Int} :
    ∀ lines : List (List Char),
      (¬(ready = true ∧ ∃ line ∈ lines, cgroupTenant line ≠ 0 ∧
        Bindable s pid (cgroupTenant line))) →
      bindFromCgroup ready pid lines s = (false, s) := by
  intro lines
  induction lines with
  | nil => intro _; rfl
  | cons line rest ih =>
      intro h
      have hrest : bindFromCgroup ready pid rest s = (false, s) := by
        apply ih
        intro ⟨hready, line', hmem, hadm⟩
        exact h ⟨hready, line', List.mem_cons_of_mem _ hmem, hadm⟩
      unfold bindFromCgroup
      split
      · rename_i hline
        have hnot : ¬Bindable s pid (cgroupTenant line) := by
          intro hbind
          exact h ⟨hline.2, line, List.mem_cons_self, hline.1, hbind⟩
        rw [bind_failed hnot, if_neg (show ¬(-1 : Int) = 0 by decide), hrest]
      · exact hrest

theorem bindFromCgroup_bound {ready : Bool} {pid : Int} (hready : ready = true) :
    ∀ lines : List (List Char),
      (∃ line ∈ lines, cgroupTenant line ≠ 0 ∧ Bindable s pid (cgroupTenant line)) →
      (bindFromCgroup ready pid lines s).1 = true ∧
        Mapped (bindFromCgroup ready pid lines s).2 pid := by
  intro lines
  induction lines with
  | nil => intro ⟨_, hmem, _⟩; cases hmem
  | cons line rest ih =>
      intro ⟨line', hmem, hne', hbind'⟩
      unfold bindFromCgroup
      by_cases hbind : cgroupTenant line ≠ 0 ∧ Bindable s pid (cgroupTenant line)
      · obtain ⟨hrc, hget⟩ := get_after_bind hbind.2
        rw [if_pos ⟨hbind.1, hready⟩, if_pos hrc]
        exact ⟨rfl, _, hget, hbind.1⟩
      · -- the line that accepts the process is a later one
        have hrest : line' ∈ rest := by
          cases hmem with
          | head => exact absurd ⟨hne', hbind'⟩ hbind
          | tail _ hmem => exact hmem
        have hih := ih ⟨line', hrest, hne', hbind'⟩
        split
        · rename_i hline
          have hnot : ¬Bindable s pid (cgroupTenant line) := fun h => hbind ⟨hline.1, h⟩
          rw [bind_failed hnot, if_neg (show ¬(-1 : Int) = 0 by decide)]
          exact hih
        · exact hih

/-- Binding from the environment: what is mapped afterwards. -/
theorem mapped_bindFromEnv (env : HookEnv) (v : View) :
    Mapped (bindFromEnv env v.proc.pid v.tenant) v.proc.pid ↔
      EnvAdmits env v ∨ Mapped v.tenant v.proc.pid := by
  unfold bindFromEnv EnvAdmits
  cases env.rdmaTenantId with
  | none => simp
  | some text =>
      simp only [Option.some.injEq, exists_eq_left']
      by_cases hpos : (MtRdma.Verified.CText.atoi text).toUInt32 = 0
      · rw [if_neg (by rw [hpos]; decide)]
        simp [hpos]
      · rw [if_pos (UInt32.pos_iff_ne_zero.mpr hpos)]
        by_cases hbind : Bindable v.tenant v.proc.pid (MtRdma.Verified.CText.atoi text).toUInt32
        · have hmapped := (get_after_bind hbind).2
          exact ⟨fun _ => .inl ⟨hpos, hbind⟩, fun _ => ⟨_, hmapped, hpos⟩⟩
        · rw [bind_failed hbind]
          simp [hbind]

theorem mapped_forkStep (env : HookEnv) (v : View) :
    Mapped (forkStep env v).tenant (forkStep env v).proc.pid ↔
      (v.proc.pid ≠ v.proc.cachedPid ∧ EnvAdmits env v) ∨ Mapped v.tenant v.proc.pid := by
  unfold forkStep
  split
  · rename_i hfork
    simpa [hfork] using mapped_bindFromEnv env v
  · rename_i hsame
    simp [hsame]

/-- Resolution finds a tenant exactly for a resolvable process. -/
theorem resolves_iff (env : HookEnv) (v : View) :
    (getCurrentTenantId env v).1 ≠ 0 ↔ Resolvable env v := by
  unfold getCurrentTenantId
  by_cases hcgroup : CgroupAdmits env v
  · have hbound := bindFromCgroup_bound (s := v.tenant) hcgroup.1 (cgroupLines env) hcgroup.2
    have hinit : (cgroupStep env v).proc.tenantInitialized = true := by
      show (v.proc.tenantInitialized || _) = true
      rw [hbound.1, Bool.or_true]
    have hmapped : Mapped (cgroupStep env v).tenant (cgroupStep env v).proc.pid := hbound.2
    simp only
    rw [if_pos hinit]
    have hfork := (mapped_forkStep env (cgroupStep env v)).mpr (.inr hmapped)
    exact ⟨fun _ => .inl hcgroup, fun _ => (mapped_iff _ _).mp hfork⟩
  · have hsame : cgroupStep env v = v := by
      have hrefused := bindFromCgroup_refused (cgroupLines env) hcgroup
      unfold cgroupStep
      simp only [hrefused, Bool.or_false]
    simp only [hsame]
    by_cases hinit : v.proc.tenantInitialized = true
    · rw [if_pos hinit]
      have hfork := mapped_forkStep env v
      rw [mapped_iff] at hfork
      rw [hfork]
      unfold Resolvable
      simp [hcgroup, hinit]
    · rw [if_neg hinit]
      unfold Resolvable
      simp [hcgroup, hinit]

/-! ## The tenant step -/

/-- The process of `v` is bound to an ACTIVE tenant with a non-zero number,
and of what the ledgers were in `before` exactly one unit of that tenant's QP
quota has been taken, which was there. -/
def ReservedBound (before : TenantSharedMemory) (v : View) : Prop :=
  ∃ tenantId t, tenantId ≠ 0 ∧ tenantIdx? tenantId = some t ∧
    tenantGetProcessTenant v.proc.pid v.tenant = some tenantId ∧
    (ledger v.tenant t).status = .active ∧
    ¬(ledger before t).quota.maxQpPerTenant ≤
      (clampQp (ledger before t).usage).qpCount.toUInt32 ∧
    ledger v.tenant t =
      withUsage (ledger before t) (reserveQp (clampQp (ledger before t).usage))

/-- A granted reservation names an ACTIVE tenant. -/
theorem active_of_tryAllocate {tenantId : UInt32} (h : (tenantTryAllocateQp tenantId s).1 = true) :
    ∃ t, tenantIdx? tenantId = some t ∧ (ledger s t).status = .active := by
  unfold tenantTryAllocateQp at h
  split at h
  · cases h
  · rename_i t ht
    split at h
    · cases h
    · rename_i hact
      exact ⟨t, ht, Decidable.not_not.mp hact⟩

/-- For a resolved process, a granted tenant step is a reservation. -/
theorem reservedBound_of_granted {v : View} (h : (getCurrentTenantId env v).1 ≠ 0)
    (hgrant : (tenantStep env v).1.isSome) :
    ReservedBound v.tenant (tenantStep env v).2 := by
  have hbound := tenantStep_bound h
  have htry : (tenantTryAllocateQp (getCurrentTenantId env v).1
      (getCurrentTenantId env v).2.tenant).1 = true := by
    rw [hbound] at hgrant
    by_contra hdenied
    simp [hdenied] at hgrant
  obtain ⟨t, ht, hact⟩ := active_of_tryAllocate htry
  rw [ledger_getCurrentTenantId] at hact
  have hget : tenantGetProcessTenant (tenantStep env v).2.proc.pid (tenantStep env v).2.tenant =
      some (getCurrentTenantId env v).1 := by
    obtain ⟨hmap, ready, cachedPid, m, s, hview⟩ := tenantStep_view h
    obtain ⟨_, _, _, hresolved⟩ := getCurrentTenantId_view env v
    rw [tenantGetProcessTenant_of_mappings hmap, hview]
    have hget := get_of_resolved h
    rw [hresolved] at hget ⊢
    exact hget
  have hout := tenantStep_outcome h ht rfl hact
  generalize (tenantStep env v).1 = decision at hgrant hout
  generalize hl : ledger (tenantStep env v).2.tenant t = l at hout
  cases hout with
  | overQuota _ => cases hgrant
  | reserved hquota =>
      exact ⟨_, t, h, ht, hget, by rw [hl]; exact hact, hquota, hl⟩

theorem clampQp_totalQpCreates (u : TenantResourceUsage) :
    (clampQp u).totalQpCreates = u.totalQpCreates := by
  unfold clampQp
  split <;> rfl

/-- A process without a tenant passes the tenant step and nothing is reserved. -/
theorem tenantStep_unresolved {v : View} (h : (getCurrentTenantId env v).1 = 0) :
    (tenantStep env v).1 = some (false, 0) ∧ ¬ReservedBound v.tenant (tenantStep env v).2 := by
  have hstep : tenantStep env v = (some (false, 0), (getCurrentTenantId env v).2) := by
    unfold tenantStep
    simp [h]
  rw [hstep]
  refine ⟨rfl, ?_⟩
  intro ⟨_, t, _, _, _, _, _, hledger⟩
  rw [ledger_getCurrentTenantId] at hledger
  -- a reservation moves the creation counter, resolution does not
  have hcount : (ledger v.tenant t).usage.totalQpCreates =
      (ledger v.tenant t).usage.totalQpCreates + 1 :=
    (congrArg (fun l => l.usage.totalQpCreates) hledger).trans
      (congrArg (· + 1) (clampQp_totalQpCreates _))
  simp at hcount

/-! ## Failing closed -/

/-- The real verb is invoked only with a reserved unit at that moment, and no
QP is returned without it. -/
structure FailClosed (before : TenantSharedMemory) (moment : View) (r : CreateQpResult) : Prop where
  reserved : r.invoked.isSome → ReservedBound before moment
  denied : r.invoked = none → r.qp = none

theorem createForTenant_invoked (env : HookEnv) (real : QpInitAttr → Option Nat)
    (attr : QpInitAttr) (v : View) :
    (createForTenant env real attr v).1.invoked.isSome = (tenantStep env v).1.isSome ∧
      ((createForTenant env real attr v).1.invoked = none →
        (createForTenant env real attr v).1.qp = none) := by
  have hcases := createForTenant_cases env real attr v
  generalize createForTenant env real attr v = result at hcases ⊢
  cases hcases with
  | denied hstep => exact ⟨by simp [hstep], fun _ => rfl⟩
  | created qp decision hstep => exact ⟨by simp [hstep], nofun⟩
  | failed tenantOk tenantId hstep => exact ⟨by simp [hstep], fun _ => rfl⟩

theorem createForTenant_failClosed_iff (env : HookEnv) (real : QpInitAttr → Option Nat)
    (attr : QpInitAttr) (v : View) :
    FailClosed v.tenant (tenantStep env v).2 (createForTenant env real attr v).1 ↔
      Resolvable env v := by
  obtain ⟨hinvoked, hdenied⟩ := createForTenant_invoked env real attr v
  rw [← resolves_iff]
  constructor
  · intro hclosed hzero
    obtain ⟨hgrant, hnot⟩ := tenantStep_unresolved hzero
    apply hnot
    apply hclosed.reserved
    rw [hinvoked, hgrant]
    rfl
  · intro hres
    refine ⟨?_, hdenied⟩
    intro hsome
    rw [hinvoked] at hsome
    exact reservedBound_of_granted hres hsome

/-- A creation refused before the tenant step is closed. -/
theorem failClosed_refused (before : TenantSharedMemory) (moment : View) (errno : Option Errno) :
    FailClosed before moment ⟨none, errno, none⟩ :=
  ⟨nofun, fun _ => rfl⟩

/-- Only the ledgers of the earlier store matter. -/
theorem failClosed_congr {before before' : TenantSharedMemory} (h : ledger before = ledger before')
    (moment : View) (r : CreateQpResult) :
    FailClosed before moment r ↔ FailClosed before' moment r := by
  have hreserved : ReservedBound before moment ↔ ReservedBound before' moment := by
    unfold ReservedBound
    rw [h]
  exact ⟨fun hc => ⟨fun hi => hreserved.mp (hc.reserved hi), hc.denied⟩,
    fun hc => ⟨fun hi => hreserved.mpr (hc.reserved hi), hc.denied⟩⟩

theorem creation_failClosed_iff {verb : Option (QpInitAttr → Option Nat)} {permitted : Bool}
    {attr : QpInitAttr} {w : View} {result : CreateQpResult × View}
    (hcases : CreationOutcome env verb permitted attr w result)
    (henabled : rdmaInterceptIsEnabled w.proc = true) :
    FailClosed w.tenant (tenantStep env w).2 result.1 ↔
      verb = none ∨ permitted = false ∨ Resolvable env w := by
  cases hcases with
  | missing hverb => exact iff_of_true (failClosed_refused _ _ _) (.inl hverb)
  | passed _ hoff => simp [henabled] at hoff
  | refused hcheck => exact iff_of_true (failClosed_refused _ _ _) (.inr (.inl hcheck))
  | checked hverb _ hcheck => simp [createForTenant_failClosed_iff, hverb, hcheck]

/-- When a creation is covered by a quota.  With interception on, whatever the
process, its environment and the store, and in mandatory mode or not, each
creation path fails closed exactly when it is refused before the tenant step
(the real verb is missing, or a restriction applies) or the process resolves
to a tenant. -/
theorem qpCreation_failClosed_iff (env : HookEnv) (attr : QpInitAttr) (v : View) :
    (∀ real : QpInitAttr → Option Nat,
      rdmaInterceptIsEnabled (hooksInitOnce env v).proc = true →
      (FailClosed v.tenant (tenantStep env (hooksInitOnce env v)).2
          (ibvCreateQp env real attr v).1 ↔
        (hooksInitOnce env v).proc.realVerbs.createQp = false ∨
          checkQpCreationRestrictions attr (hooksInitOnce env v) = false ∨
          Resolvable env (hooksInitOnce env v))) ∧
    (∀ (real : Nat → QpInitAttr → Option Nat) (context : Nat),
      rdmaInterceptIsEnabled v.proc = true →
      (FailClosed v.tenant (tenantStep env v).2 (createQpExWrapper env real context attr v).1 ↔
        findOriginalCreateQpEx context v.proc = none ∨
          checkQpCreationRestrictionsExtended attr v = false ∨ Resolvable env v)) := by
  constructor
  · intro real henabled
    rw [failClosed_congr (ledger_hooksInitOnce env v).symm]
    simpa using creation_failClosed_iff (ibvCreateQp_cases env real attr v) henabled
  · intro real context henabled
    simpa using creation_failClosed_iff (createQpExWrapper_cases env real context attr v) henabled

/-- The environment of a process in mandatory mode that names no tenant. -/
def mandatoryEnv : HookEnv := { quietEnv with rdmaInterceptMandatory := true }

/-- An initialized process with one opened device, and the store `s`. -/
def mandatoryView (s : TenantSharedMemory) : View where
  proc := { settledProcess 100 with verbCtxTable := [⟨1, 2⟩] }
  shm := SharedMemory.zeroed
  tenant := s

theorem mandatoryView_settled (s : TenantSharedMemory) :
    Settled mandatoryEnv (mandatoryView s).proc :=
  ⟨rfl, rfl, rfl, rfl⟩

def rcAttr : QpInitAttr := ⟨.rc, 1, 1⟩

/-- A process bound to a tenant is closed on both paths. -/
theorem qpCreation_failClosed_bound :
    FailClosed (soloTenant 100 defaultQuota)
        (tenantStep mandatoryEnv
          (hooksInitOnce mandatoryEnv (mandatoryView (soloTenant 100 defaultQuota)))).2
        (ibvCreateQp mandatoryEnv (fun _ => some 7) rcAttr
          (mandatoryView (soloTenant 100 defaultQuota))).1 ∧
      FailClosed (soloTenant 100 defaultQuota)
        (tenantStep mandatoryEnv (mandatoryView (soloTenant 100 defaultQuota))).2
        (createQpExWrapper mandatoryEnv (fun _ _ => some 7) 1 rcAttr
          (mandatoryView (soloTenant 100 defaultQuota))).1 := by
  have hinit := (mandatoryView_settled (soloTenant 100 defaultQuota)).hooksInitOnce
  have hres : Resolvable mandatoryEnv (mandatoryView (soloTenant 100 defaultQuota)) :=
    .inr ⟨rfl, .inr ⟨1, soloTenant_get (by decide) defaultQuota, by decide⟩⟩
  obtain ⟨hcreate, hcreateEx⟩ :=
    qpCreation_failClosed_iff mandatoryEnv rcAttr (mandatoryView (soloTenant 100 defaultQuota))
  exact ⟨(hcreate (fun _ => some 7) (by rw [hinit]; rfl)).mpr
      (.inr (.inr (by rw [hinit]; exact hres))),
    (hcreateEx (fun _ _ => some 7) 1 rfl).mpr (.inr (.inr hres))⟩

/-- In mandatory mode a process without any tenant creates a QP on both
paths. -/
theorem mandatory_unbound_creates :
    mandatoryEnv.rdmaInterceptMandatory = true ∧
      rdmaInterceptIsEnabled (mandatoryView zeroed).proc = true ∧
      ¬Mapped zeroed 100 ∧
      ¬ReservedBound zeroed (tenantStep mandatoryEnv (mandatoryView zeroed)).2 ∧
      (ibvCreateQp mandatoryEnv (fun _ => some 7) rcAttr (mandatoryView zeroed)).1 =
        ⟨some 7, none, some rcAttr⟩ ∧
      (createQpExWrapper mandatoryEnv (fun _ _ => some 7) 1 rcAttr (mandatoryView zeroed)).1 =
        ⟨some 7, none, some rcAttr⟩ := by
  have hsettled := mandatoryView_settled zeroed
  have hget : tenantGetProcessTenant 100 zeroed = none := get_zeroed (by decide)
  have hstep : tenantStep mandatoryEnv (mandatoryView zeroed) =
      (some (false, 0), mandatoryView zeroed) := by
    unfold tenantStep
    simp only [hsettled.getCurrentTenantId]
    rw [show tenantGetProcessTenant (mandatoryView zeroed).proc.pid (mandatoryView zeroed).tenant =
      none from hget]
    simp
  have hcreate : (createForTenant mandatoryEnv (fun _ => some 7) rcAttr (mandatoryView zeroed)).1 =
      ⟨some 7, none, some rcAttr⟩ := by
    unfold createForTenant
    rw [hstep]
    rfl
  refine ⟨rfl, rfl, ?_, ?_, ?_, ?_⟩
  · rw [mapped_iff, hget]
    simp
  · apply (tenantStep_unresolved ?_).2
    rw [hsettled.getCurrentTenantId]
    show (tenantGetProcessTenant 100 zeroed).getD 0 = 0
    rw [hget]
    rfl
  · unfold ibvCreateQp
    rw [hsettled.hooksInitOnce]
    exact hcreate
  · exact hcreate

end MtRdma.Ports.RdmaHooks
