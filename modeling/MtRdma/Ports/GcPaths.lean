import MtRdma.Ports.GlobalTotals
import MtRdma.Ports.TenantLedger

/-!
# The three reclamation paths of the collector

An entry is reclaimed by the exit event of its pidfd, by the scan when no
pidfd could be registered, or by the health check of the scan.  All three
empty the slot with the same block.  Only the exit event also gives the usage
back to the tenant, so the paths agree exactly when there is nothing to give
back.
-/

namespace MtRdma.Ports.GcPaths

open Verified.SlotScan
open Verified.Runs
open SharedMemory
open SharedMemoryTenant
open CollectorGc
open GlobalTotals

variable {g : GcState} {probe : SlotProbe} {dead : ResourceUsage}

/-! ## When each path runs -/

/-- An exit event finds the entry its pidfd was registered for. -/
structure ExitPath (slot : Slot) (g : GcState) : Prop where
  occupied : g.shm.processPids slot ≠ 0
  unchanged : SlotUnchanged slot g

/-- The scan finds an unregistered entry, fails to register it, and the health
check says dead. -/
structure UnregisteredPath (probe : SlotProbe) (slot : Slot) (g : GcState) : Prop where
  occupied : g.shm.processPids slot ≠ 0
  unregistered : (g.pidfds slot).pidfd < 0
  failed : probe.pidfdOpen < 0 ∨ probe.epollAdd = false
  dead : gcIsProcessReallyAlive probe.status = false

/-- The scan finds a registered entry, and the health check says dead. -/
structure HealthPath (probe : SlotProbe) (slot : Slot) (g : GcState) : Prop where
  occupied : g.shm.processPids slot ≠ 0
  registered : 0 ≤ (g.pidfds slot).pidfd
  unchanged : SlotUnchanged slot g
  dead : gcIsProcessReallyAlive probe.status = false

/-! ## What each path does to the segments -/

theorem ExitPath.segments {slot : Slot} (h : ExitPath slot g) :
    (gcHandleProcessExit slot g).shm = clearSlot slot g.shm ∧
      (gcHandleProcessExit slot g).tenant =
        gcAdjustTenant (g.shm.processPids slot) (g.shm.processStats slot) g.tenant := by
  rcases gcHandleProcessExit_cases slot g with ⟨hno, _⟩ | ⟨_, _, hshm, htenant⟩
  · exact absurd ⟨h.unchanged, h.occupied⟩ hno
  · exact ⟨hshm, htenant⟩

/-- A registration that fails leaves the slot unregistered. -/
theorem gcRegisterPidfd_failed (slot : Slot) (pid : Int) (startTime : UInt64)
    (hfail : probe.pidfdOpen < 0 ∨ probe.epollAdd = false) (g : GcState) :
    (gcRegisterPidfd slot pid startTime probe g).pidfds slot = .unregistered := by
  rw [gcRegisterPidfd_pidfds, Function.update_self, registered, if_pos hfail]

theorem UnregisteredPath.segments {slot : Slot} (h : UnregisteredPath probe slot g) :
    (gcScanSlot probe slot g).shm = clearSlot slot g.shm ∧
      (gcScanSlot probe slot g).tenant = g.tenant := by
  have hentry := gcRegisterPidfd_failed slot (g.shm.processPids slot)
    (g.shm.processStartTimes slot) h.failed g
  have hneg : (PidfdEntry.unregistered).pidfd < 0 := by decide
  unfold gcScanSlot
  rw [if_neg h.occupied, if_pos h.unregistered]
  simp only [hentry]
  rw [if_pos ⟨hneg, by simp [h.dead]⟩]
  simp [reclaimScanned]

theorem HealthPath.segments {slot : Slot} (h : HealthPath probe slot g) :
    (gcScanSlot probe slot g).shm = clearSlot slot g.shm ∧
      (gcScanSlot probe slot g).tenant = g.tenant := by
  have hreg : ¬(g.pidfds slot).pidfd < 0 := by
    have := h.registered
    omega
  unfold gcScanSlot
  rw [if_neg h.occupied, if_neg hreg, if_neg (not_not.mpr h.unchanged),
    if_pos (by simp [h.dead])]
  exact ⟨rfl, rfl⟩

/-! ## When the tenant adjustment changes nothing -/

/-- `t` is the record the exit path charges: the pid is positive and mapped to
a non-zero tenant, which is ACTIVE. -/
def ChargedTenant (pid : Int) (s : TenantSharedMemory) (t : TenantIdx) : Prop :=
  0 < pid ∧ (s.tenants t).status = .active ∧
    ∃ tenantId, tenantGetProcessTenant pid s = some tenantId ∧ 0 < tenantId ∧
      tenantIdx? tenantId = some t

/-- The clamped subtraction of `dead` from the tenant's counts is the
identity. -/
structure NothingToGiveBack (tu : TenantResourceUsage) (dead : ResourceUsage) : Prop where
  qp : tu.qpCount = 0
  mr : (tu.mrCount = 0 ∧ 0 ≤ dead.mrCount) ∨ (dead.mrCount = 0 ∧ 0 < tu.mrCount)
  memory : tu.memoryUsed = 0 ∨ dead.memoryUsed = 0

private theorem clamp32_eq_self_iff (x d : Int32) :
    (if d < x then x - d else 0) = x ↔ (x = 0 ∧ 0 ≤ d) ∨ (d = 0 ∧ 0 < x) := by
  by_cases hlt : d < x
  · rw [if_pos hlt]
    constructor
    · intro heq
      have hd : d = 0 := by
        have hsum : x - d + d = x := Int32.sub_add_cancel x d
        rw [heq] at hsum
        have hzero : x + d = x + 0 := by rw [hsum, Int32.add_zero]
        exact Int32.add_right_inj x |>.mp hzero
      exact .inr ⟨hd, hd ▸ hlt⟩
    · rintro (⟨hx, hd⟩ | ⟨hd, _⟩)
      · rw [hx] at hlt
        exact absurd hlt (Int32.not_lt.mpr hd)
      · rw [hd, Int32.sub_zero]
  · rw [if_neg hlt]
    have hle : x ≤ d := Int32.not_lt.mp hlt
    constructor
    · intro heq
      exact .inl ⟨heq.symm, heq ▸ hle⟩
    · rintro (⟨hx, _⟩ | ⟨hd, hx⟩)
      · exact hx.symm
      · rw [hd] at hlt
        exact absurd hx hlt

private theorem clamp64_eq_self_iff (x d : UInt64) :
    (if d < x then x - d else 0) = x ↔ x = 0 ∨ d = 0 := by
  by_cases hlt : d < x
  · rw [if_pos hlt]
    constructor
    · intro heq
      have hsum : x - d + d = x := UInt64.sub_add_cancel x d
      rw [heq] at hsum
      have hzero : x + d = x + 0 := by rw [hsum, UInt64.add_zero]
      exact .inr (UInt64.add_right_inj x |>.mp hzero)
    · rintro (hx | hd)
      · rw [hx] at hlt
        exact absurd hlt (by simp)
      · rw [hd, UInt64.sub_zero]
  · rw [if_neg hlt]
    constructor
    · intro heq
      exact .inl heq.symm
    · rintro (hx | hd)
      · exact hx.symm
      · rw [hd] at hlt
        have hx : x = 0 := by
          have hle : x ≤ 0 := UInt64.not_lt.mp hlt
          exact UInt64.le_zero_iff.mp hle
        exact hx.symm

/-- A process with QPs gives nothing back exactly when the tenant has nothing
of what the process recorded. -/
theorem reclaimedUsage_eq_self_iff (tu : TenantResourceUsage) (hqp : 0 < dead.qpCount) :
    reclaimedUsage tu dead = tu ↔ NothingToGiveBack tu dead := by
  have hfields : reclaimedUsage tu dead = tu ↔
      (if dead.qpCount < tu.qpCount then tu.qpCount - dead.qpCount else 0) = tu.qpCount ∧
      (if dead.mrCount < tu.mrCount then tu.mrCount - dead.mrCount else 0) = tu.mrCount ∧
      (if dead.memoryUsed < tu.memoryUsed then tu.memoryUsed - dead.memoryUsed else 0) =
        tu.memoryUsed := by
    constructor
    · intro heq
      exact ⟨congrArg TenantResourceUsage.qpCount heq, congrArg TenantResourceUsage.mrCount heq,
        congrArg TenantResourceUsage.memoryUsed heq⟩
    · rintro ⟨h1, h2, h3⟩
      unfold reclaimedUsage
      rw [h1, h2, h3]
  rw [hfields, clamp32_eq_self_iff, clamp32_eq_self_iff, clamp64_eq_self_iff]
  constructor
  · rintro ⟨hq, hm, hb⟩
    refine ⟨?_, hm, hb⟩
    rcases hq with ⟨hx, _⟩ | ⟨hd, _⟩
    · exact hx
    · rw [hd] at hqp
      exact absurd hqp (by decide)
  · intro h
    exact ⟨.inl ⟨h.qp, Int32.le_of_lt hqp⟩, h.mr, h.memory⟩

theorem gcAdjustTenant_charged {pid : Int} {s : TenantSharedMemory} {t : TenantIdx}
    (h : ChargedTenant pid s t) (hqp : 0 < dead.qpCount) :
    gcAdjustTenant pid dead s =
      setTenant t { s.tenants t with usage := reclaimedUsage (s.tenants t).usage dead } s := by
  obtain ⟨hpid, hact, tenantId, hmap, hpos, ht⟩ := h
  unfold gcAdjustTenant
  rw [if_pos ⟨hpid, hqp⟩, hmap]
  simp only
  rw [if_pos hpos, tenantGetResourceUsage_active ht hact]
  simp only
  rw [tenantUpdateResourceUsage_active ht hact]

theorem gcAdjustTenant_noQp {pid : Int} (s : TenantSharedMemory) (hqp : ¬0 < dead.qpCount) :
    gcAdjustTenant pid dead s = s := by
  unfold gcAdjustTenant
  rw [if_neg]
  intro hcond
  exact hqp hcond.2

/-- Without a tenant to charge the adjustment does nothing. -/
theorem gcAdjustTenant_uncharged {pid : Int} (dead : ResourceUsage) {s : TenantSharedMemory}
    (h : ∀ t, ¬ChargedTenant pid s t) : gcAdjustTenant pid dead s = s := by
  unfold gcAdjustTenant
  split
  · rename_i hcond
    split
    · rfl
    · rename_i tenantId hmap
      split
      · rename_i hpos
        cases hget : tenantGetResourceUsage tenantId s with
        | none => rfl
        | some tu =>
            -- a usage record is handed out for ACTIVE tenants only
            unfold tenantGetResourceUsage at hget
            cases ht : tenantIdx? tenantId with
            | none => simp [ht] at hget
            | some t =>
                have hact : (s.tenants t).status = .active := by
                  by_contra hno
                  simp [ht, hno] at hget
                exact absurd ⟨hcond.1, hact, tenantId, hmap, hpos, ht⟩ (h t)
      · rfl
  · rfl

/-! ## What is compared -/

/-- Two collectors that see the same segments. -/
structure SameSegments (g g' : GcState) : Prop where
  shm : g'.shm = g.shm
  tenant : g'.tenant = g.tenant

/-- Two outcomes with the same process table, totals included, and the same
usage record for the tenant of `pid`. -/
structure SameReclamation (pid : Int) (before g g' : GcState) : Prop where
  shm : g'.shm = g.shm
  usage : ∀ tenantId t, tenantGetProcessTenant pid before.tenant = some tenantId →
    tenantIdx? tenantId = some t → (g'.tenant.tenants t).usage = (g.tenant.tenants t).usage

/-! ## The whole system, and a state in which a process dies -/

/-- Calls on the two segments: those of the process table and the collector,
those that manage tenants, and the two ways the hooks write a usage record. -/
inductive SystemCall where
  | table (call : TableCall)
  | manage (op : TenantOp)
  | writeUsage (tenantId : UInt32) (usage : TenantResourceUsage)
  | tryAllocateQp (tenantId : UInt32)

def systemCall (g : GcState) : SystemCall → GcState
  | .table call => tableCall g call
  | .manage op => { g with tenant := (tenantApply g.tenant op).2 }
  | .writeUsage tenantId usage =>
      { g with tenant := (tenantUpdateResourceUsage tenantId usage g.tenant).2 }
  | .tryAllocateQp tenantId => { g with tenant := (tenantTryAllocateQp tenantId g.tenant).2 }

/-- Zeroed segments, and the collector's table as static storage leaves it. -/
def systemStart : GcState :=
  ⟨SharedMemory.zeroed, SharedMemoryTenant.zeroed, fun _ => ⟨0, 0, 0⟩, []⟩

/-- States that some sequence of calls reaches. -/
def Reachable (g : GcState) : Prop :=
  ∃ calls : List SystemCall, calls.foldl systemCall systemStart = g

theorem Reachable.call (h : Reachable g) (call : SystemCall) :
    Reachable (systemCall g call) := by
  obtain ⟨calls, rfl⟩ := h
  exact ⟨calls ++ [call], by rw [List.foldl_append]; rfl⟩

/-- `State:` as `/proc` shows it for a sleeping process. -/
def sleepingStatus : Option (List Char) := some "State:\tS (sleeping)\n".toList

theorem sleepingStatus_alive : gcIsProcessReallyAlive sleepingStatus = true := by
  decide

/-- Nothing can be registered, and everything is alive. -/
def idleProbes : Slot → SlotProbe := fun _ => ⟨-1, false, sleepingStatus⟩

/-- Registration succeeds with descriptor 5. -/
def openProbes : Slot → SlotProbe := fun _ => ⟨5, true, sleepingStatus⟩

/-- The process has gone. -/
def deadProbe : SlotProbe := ⟨-1, false, none⟩

/-- The collector's state after its first scan, with nothing to register. -/
def scannedStart : GcState := gcScanAndRegister idleProbes systemStart

/-- Tenant 1 is created, process 100 bound to it, and its one QP reserved and
published. -/
def publishOneQp : List SystemCall :=
  [.manage (.create 1 none (some defaultQuota)), .manage (.bind ⟨100, by decide⟩ 1),
    .tryAllocateQp 1, .table (.update 100 ⟨1, 0, 0⟩ 7)]

/-- No scan has seen the process yet. -/
def unwatched : GcState := publishOneQp.foldl systemCall scannedStart

/-- The next scan has registered it. -/
def watched : GcState := gcScanAndRegister openProbes unwatched

theorem reachable_unwatched : Reachable unwatched :=
  ⟨.table (.scan idleProbes) :: publishOneQp, rfl⟩

theorem reachable_watched : Reachable watched :=
  reachable_unwatched.call (.table (.scan openProbes))

theorem scannedStart_shm : scannedStart.shm = SharedMemory.zeroed :=
  gcScanAndRegister_shm_of_alive (fun _ => sleepingStatus_alive) systemStart

theorem scannedStart_tenant : scannedStart.tenant = SharedMemoryTenant.zeroed :=
  gcScanAndRegister_tenant idleProbes systemStart

/-- The zeroed table counts as registered with descriptor 0; the first scan
drops that. -/
theorem scannedStart_entry (slot : Slot) : scannedStart.pidfds slot = .unregistered := by
  have hview := congrArg SlotView.entry (gcScanAndRegister_slot idleProbes slot systemStart)
  rw [slotView_entry] at hview
  rw [scannedStart, hview]
  rfl

theorem publish_tenant (g : GcState) : (publishOneQp.foldl systemCall g).tenant =
    (tenantTryAllocateQp 1 (tenantBindProcess 100 1
      (tenantCreate 1 none (some defaultQuota) g.tenant).2).2).2 := rfl

theorem publish_shm (g : GcState) : (publishOneQp.foldl systemCall g).shm =
    (shmUpdateProcessResources 100 ⟨1, 0, 0⟩ 7 g.shm).2 := rfl

theorem publish_pidfds (g : GcState) :
    (publishOneQp.foldl systemCall g).pidfds = g.pidfds := rfl

theorem unwatched_tenant :
    unwatched.tenant = (tenantTryAllocateQp 1 (soloTenant 100 defaultQuota)).2 := by
  rw [unwatched, publish_tenant, scannedStart_tenant]
  rfl

theorem unwatched_entry : unwatched.pidfds 0 = .unregistered := by
  rw [unwatched, publish_pidfds, scannedStart_entry]

theorem unwatched_slot :
    unwatched.shm.processPids 0 = 100 ∧ unwatched.shm.processStartTimes 0 = 7 ∧
      unwatched.shm.processStats 0 = ⟨1, 0, 0⟩ := by
  have habs : lookup SharedMemory.zeroed.processPids 100 = none := by
    rw [lookup_eq_none_iff]
    intro i
    show (0 : Int) ≠ 100
    decide
  have hhole : lookup SharedMemory.zeroed.processPids 0 = some 0 := lookup_first rfl
  rw [unwatched, publish_shm, scannedStart_shm]
  unfold shmUpdateProcessResources
  rw [if_neg (by decide), scan_eq_lookup habs, hhole]
  simp [storeUsage, claimSlot]

theorem watched_shm : watched.shm = unwatched.shm :=
  gcScanAndRegister_shm_of_alive (fun _ => sleepingStatus_alive) unwatched

theorem watched_tenant : watched.tenant = unwatched.tenant :=
  gcScanAndRegister_tenant openProbes unwatched

theorem watched_entry : watched.pidfds 0 = ⟨5, 100, 7⟩ := by
  obtain ⟨hpid, hstart, _⟩ := unwatched_slot
  have hocc : unwatched.shm.processPids 0 ≠ 0 := by rw [hpid]; decide
  have hunreg : (unwatched.pidfds 0).pidfd < 0 := by rw [unwatched_entry]; decide
  have hentry := gcScanAndRegister_registers openProbes hocc hunreg (by decide) rfl
  rw [hpid, hstart] at hentry
  rw [watched, hentry]
  rfl

theorem watched_exitPath : ExitPath 0 watched := by
  obtain ⟨hpid, hstart, _⟩ := unwatched_slot
  refine ⟨by rw [watched_shm, hpid]; decide, ?_, ?_⟩
  · rw [watched_shm, watched_entry, hpid]
  · rw [watched_shm, watched_entry, hstart]

theorem watched_healthPath : HealthPath deadProbe 0 watched :=
  { occupied := watched_exitPath.occupied
    registered := by rw [watched_entry]; decide
    unchanged := watched_exitPath.unchanged
    dead := rfl }

theorem unwatched_unregisteredPath : UnregisteredPath deadProbe 0 unwatched := by
  obtain ⟨hpid, _, _⟩ := unwatched_slot
  refine ⟨by rw [hpid]; decide, by rw [unwatched_entry]; decide, .inl (by decide), rfl⟩

/-- The usage record of tenant 1 while its process holds the QP. -/
theorem watched_usage : (watched.tenant.tenants 1).status = .active ∧
    (watched.tenant.tenants 1).usage = reserveQp .zero := by
  obtain ⟨hact, hquota, husage⟩ := soloTenant_record (by decide : (100 : Int) ≠ 0) defaultQuota
  rw [watched_tenant, unwatched_tenant, tenantTryAllocateQp_active tenantIdx?_one hact, hquota,
    husage, if_neg (by decide)]
  simp [setTenant, hact]
  rfl

theorem watched_qp : 0 < (watched.shm.processStats 0).qpCount := by
  rw [watched_shm, unwatched_slot.2.2]
  decide

theorem watched_charged : ChargedTenant (watched.shm.processPids 0) watched.tenant 1 := by
  rw [watched_shm, unwatched_slot.1]
  refine ⟨by decide, watched_usage.1, 1, ?_, by decide, tenantIdx?_one⟩
  rw [watched_tenant, unwatched_tenant,
    tenantGetProcessTenant_of_mappings (tenantTryAllocateQp_frame _ _)]
  exact soloTenant_get (by decide) defaultQuota

/-! ## The comparison -/

/-- **The three paths reclaim the same exactly when the process leaves nothing
to give back**: it recorded no QPs, or its pid is not mapped to an ACTIVE
tenant other than 0, or that tenant's counts are already exhausted. -/
theorem gcPaths_agree_iff {slot : Slot} {g₁ g₂ g₃ : GcState} {probe₂ probe₃ : SlotProbe}
    (h₁₂ : SameSegments g₁ g₂) (h₁₃ : SameSegments g₁ g₃) (hexit : ExitPath slot g₁)
    (hunreg : UnregisteredPath probe₂ slot g₂) (hhealth : HealthPath probe₃ slot g₃) :
    (SameReclamation (g₁.shm.processPids slot) g₁ (gcHandleProcessExit slot g₁)
        (gcScanSlot probe₂ slot g₂) ∧
      SameReclamation (g₁.shm.processPids slot) g₁ (gcHandleProcessExit slot g₁)
        (gcScanSlot probe₃ slot g₃)) ↔
      (0 < (g₁.shm.processStats slot).qpCount →
        ∀ t, ChargedTenant (g₁.shm.processPids slot) g₁.tenant t →
          NothingToGiveBack (g₁.tenant.tenants t).usage (g₁.shm.processStats slot)) := by
  obtain ⟨hshm₁, hten₁⟩ := hexit.segments
  obtain ⟨hshm₂, hten₂⟩ := hunreg.segments
  obtain ⟨hshm₃, hten₃⟩ := hhealth.segments
  rw [h₁₂.shm] at hshm₂
  rw [h₁₂.tenant] at hten₂
  rw [h₁₃.shm] at hshm₃
  rw [h₁₃.tenant] at hten₃
  constructor
  · rintro ⟨hsame, _⟩ hqp t hcharged
    have hcopy := hcharged
    obtain ⟨_, _, tenantId, hmap, _, ht⟩ := hcopy
    have husage := hsame.usage tenantId t hmap ht
    rw [hten₁, hten₂, gcAdjustTenant_charged hcharged hqp] at husage
    simp only [setTenant, Function.update_self] at husage
    exact (reclaimedUsage_eq_self_iff _ hqp).mp husage.symm
  · intro hcond
    -- under the condition the exit path leaves the tenant store as it is
    have hsame : ∀ t, ((gcHandleProcessExit slot g₁).tenant.tenants t).usage =
        (g₁.tenant.tenants t).usage := by
      intro t
      rw [hten₁]
      by_cases hqp : 0 < (g₁.shm.processStats slot).qpCount
      · by_cases hex : ∃ t', ChargedTenant (g₁.shm.processPids slot) g₁.tenant t'
        · obtain ⟨t', hcharged⟩ := hex
          have hnothing := (reclaimedUsage_eq_self_iff _ hqp).mpr (hcond hqp t' hcharged)
          rw [gcAdjustTenant_charged hcharged hqp, hnothing]
          simp [setTenant]
        · rw [gcAdjustTenant_uncharged _ (not_exists.mp hex)]
      · rw [gcAdjustTenant_noQp _ hqp]
    constructor
    · refine ⟨by rw [hshm₁, hshm₂], ?_⟩
      intro tenantId t _ _
      rw [hten₂, hsame t]
    · refine ⟨by rw [hshm₁, hshm₃], ?_⟩
      intro tenantId t _ _
      rw [hten₃, hsame t]

/-- When process 100 dies holding one QP the condition fails, and so does the
agreement. -/
theorem gcPaths_disagree_watched :
    ¬(SameReclamation (watched.shm.processPids 0) watched (gcHandleProcessExit 0 watched)
        (gcScanSlot deadProbe 0 unwatched) ∧
      SameReclamation (watched.shm.processPids 0) watched (gcHandleProcessExit 0 watched)
        (gcScanSlot deadProbe 0 watched)) := by
  rw [gcPaths_agree_iff ⟨watched_shm.symm, watched_tenant.symm⟩ ⟨rfl, rfl⟩ watched_exitPath
    unwatched_unregisteredPath watched_healthPath]
  intro hcond
  have hzero := (hcond watched_qp 1 watched_charged).qp
  rw [watched_usage.2] at hzero
  exact absurd hzero (by decide)

/-- Process 100 dies holding one QP.  The exit event returns the unit to its
tenant; either fallback of the scan empties the same slot and leaves the
tenant charged for ever. -/
theorem gcPaths_differ :
    Reachable watched ∧ Reachable unwatched ∧ SameSegments watched unwatched ∧
      ExitPath 0 watched ∧ HealthPath deadProbe 0 watched ∧
      UnregisteredPath deadProbe 0 unwatched ∧
      tenantGetProcessTenant 100 watched.tenant = some 1 ∧
      ((gcHandleProcessExit 0 watched).tenant.tenants 1).usage.qpCount = 0 ∧
      ((gcScanSlot deadProbe 0 watched).tenant.tenants 1).usage.qpCount = 1 ∧
      ((gcScanSlot deadProbe 0 unwatched).tenant.tenants 1).usage.qpCount = 1 := by
  obtain ⟨hpid, _, hstats⟩ := unwatched_slot
  refine ⟨reachable_watched, reachable_unwatched, ⟨watched_shm.symm, watched_tenant.symm⟩,
    watched_exitPath, watched_healthPath, unwatched_unregisteredPath, ?_, ?_, ?_, ?_⟩
  · obtain ⟨_, _, tenantId, hmap, _, ht⟩ := watched_charged
    rw [watched_shm, hpid] at hmap
    rw [hmap, tenantIdx?_inj ht tenantIdx?_one]
  · rw [watched_exitPath.segments.2, gcAdjustTenant_charged watched_charged watched_qp,
      watched_shm, hstats,
      watched_usage.2]
    simp [setTenant]
    decide
  · rw [watched_healthPath.segments.2, watched_usage.2]
    rfl
  · rw [unwatched_unregisteredPath.segments.2, ← watched_tenant, watched_usage.2]
    rfl

end MtRdma.Ports.GcPaths
