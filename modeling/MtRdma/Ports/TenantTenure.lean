import MtRdma.Ports.TenantLedger
import MtRdma.Ports.GcLiveness

/-!
# Reclaimed processes and the pid-to-tenant map

A process binds its pid to a tenant, and the mapping is in force until a
later bind of the pid, an unbind, or the deletion of the tenant.  Neither path
of the collector is among these: the exit event reads the map to find the
tenant to charge, and the scan does not look at it.  So a mapping outlives the
process that made it, and the next process with the pid inherits it.

To say so, the world of `ProcessLife` is extended with the process behind the
last successful bind of each pid, and with the dead processes whose entries
the collector has emptied.  Where each dead process is unbound, or its pid
bound again, before its entry is emptied, every mapping belongs to a process
that has not been reclaimed.
-/

namespace MtRdma.Ports.TenantTenure

open Verified.SlotScan
open Verified.Runs
open SharedMemory (Slot ResourceUsage shmReadProcStartTime
  shmUpdateProcessResources storeUsage claimSlot)
open SharedMemoryTenant
open CollectorGc
open ProcessLife
open GcLiveness (process100 stat100 stat100_read)

variable {w' : LifeWorld} {e : LifeEvent}

/-! ## The world -/

structure TenureWorld extends LifeWorld where
  binder : Int → Option ProcId
  reclaimed : Finset ProcId

/-- A step of a process or of the collector, a bind of a process (every bind in
the hooks passes the pid of the caller), or a call that manages tenants. -/
inductive TenureEvent where
  | life (e : LifeEvent)
  | bind (p : ProcId) (tenantId : UInt32)
  | manage (op : TenantOp)

/-- The dead processes whose entries the collector empties on the way from `w`
to `w'`. -/
def reclaims (w : LifeWorld) (w' : LifeWorld) : LifeEvent → Finset ProcId
  | .exitEvent _ | .scan _ _ => w.dead.filter fun p =>
      ∃ slot, w.publisher slot = some p ∧ w.gc.shm.processPids slot ≠ 0 ∧
        w'.gc.shm.processPids slot = 0
  | _ => ∅

namespace TenureWorld

def afterLife (w : TenureWorld) (e : LifeEvent) (w' : LifeWorld) : TenureWorld where
  toLifeWorld := w'
  binder := w.binder
  reclaimed := w.reclaimed ∪ reclaims w.toLifeWorld w' e

def setTenants (w : TenureWorld) (s : TenantSharedMemory) : TenureWorld :=
  { w with gc := { w.gc with tenant := s } }

def afterBind (w : TenureWorld) (p : ProcId) (tenantId : UInt32) : TenureWorld :=
  let (rc, s) := tenantBindProcess p.pid tenantId w.gc.tenant
  { w.setTenants s with
    binder := if rc = 0 then Function.update w.binder p.pid (some p) else w.binder }

def afterManage (w : TenureWorld) (op : TenantOp) : TenureWorld :=
  w.setTenants (tenantApply w.gc.tenant op).2

end TenureWorld

inductive TenureStep : TenureWorld → TenureEvent → TenureWorld → Prop
  | life {w : TenureWorld} {e : LifeEvent} {w' : LifeWorld} :
      LifeStep w.toLifeWorld e w' → TenureStep w (.life e) (w.afterLife e w')
  | bind {w : TenureWorld} {p : ProcId} {tenantId : UInt32} : p ∈ w.running →
      TenureStep w (.bind p tenantId) (w.afterBind p tenantId)
  | manage {w : TenureWorld} {op : TenantOp} : (∀ pid tenantId, op ≠ .bind pid tenantId) →
      TenureStep w (.manage op) (w.afterManage op)

/-- Nothing has happened yet. -/
structure TenureStart (w : TenureWorld) : Prop where
  life : LifeStart w.toLifeWorld
  tenant : w.gc.tenant = zeroed
  reclaimed : w.reclaimed = ∅

/-- If `p` was the last to bind its pid, that mapping is gone. -/
def Released (w : TenureWorld) (p : ProcId) : Prop :=
  w.binder p.pid = some p → tenantGetProcessTenant p.pid w.gc.tenant = none

/-- Before the collector visits an entry of a dead process, the mapping of that
process has been removed or replaced. -/
def ReleasedFirst (w : TenureWorld) : TenureEvent → Prop
  | .life (.exitEvent slot) => ∀ p, w.publisher slot = some p → p ∈ w.dead → Released w p
  | .life (.scan _ _) => ∀ slot p, w.publisher slot = some p → p ∈ w.dead → Released w p
  | _ => True

def ReleasingStep (w : TenureWorld) (e : TenureEvent) (w' : TenureWorld) : Prop :=
  ReleasedFirst w e ∧ TenureStep w e w'

/-! ## The collector and the map -/

theorem exitEvent_tenant (slot : Slot) (g : GcState) :
    (gcHandleProcessExit slot g).tenant = g.tenant ∨ ∃ tenantId usage,
      (gcHandleProcessExit slot g).tenant =
        (tenantUpdateResourceUsage tenantId usage g.tenant).2 := by
  rcases gcHandleProcessExit_cases slot g with ⟨_, _, htenant⟩ | ⟨_, _, _, htenant⟩
  · exact .inl htenant
  · rw [htenant]
    exact gcAdjustTenant_cases _ _ _

/-- **No step of a process or of the collector writes the map.** -/
theorem lifeStep_map {w : LifeWorld} (hstep : LifeStep w e w') (h : PidMapWf w.gc.tenant) :
    PidMapWf w'.gc.tenant ∧ w'.gc.tenant.pidMappings = w.gc.tenant.pidMappings := by
  cases hstep with
  | start | publish | die => exact ⟨h, rfl⟩
  | @exitEvent slot _ _ _ =>
      rw [LifeWorld.afterExitEvent, LifeWorld.afterCollect_gc]
      rcases exitEvent_tenant slot w.gc with htenant | ⟨tenantId, usage, htenant⟩
      · rw [htenant]
        exact ⟨h, rfl⟩
      · rw [htenant]
        exact ⟨h.updateUsage tenantId usage, tenantUpdateResourceUsage_frame _ _ _⟩
  | @scan probes _ _ =>
      rw [LifeWorld.afterScan_gc, gcScanAndRegister_tenant probes w.gc]
      exact ⟨h, rfl⟩

/-! ## The invariant -/

/-- Running processes have pids, and are not dead. -/
def Living (w : LifeWorld) : Prop := ∀ p ∈ w.running, 0 < p.pid ∧ p ∉ w.dead

/-- Every mapping belongs to a process that has not been reclaimed. -/
structure TenureInv (w : TenureWorld) : Prop where
  wf : PidMapWf w.gc.tenant
  living : Living w.toLifeWorld
  gone : w.reclaimed ⊆ w.dead
  held : ∀ pid tenantId, 0 < pid → tenantGetProcessTenant pid w.gc.tenant = some tenantId →
    ∃ b, b.pid = pid ∧ w.binder pid = some b ∧ b ∉ w.reclaimed

theorem lifeStep_living {w : LifeWorld} (hstep : LifeStep w e w') (h : Living w) :
    Living w' ∧ w.dead ⊆ w'.dead := by
  cases hstep with
  | @start p _ hdead hpos _ =>
      refine ⟨?_, Finset.Subset.refl _⟩
      intro q hq
      rcases Finset.mem_insert.mp hq with rfl | hq
      · exact ⟨hpos, hdead⟩
      · exact h q hq
  | publish _ => exact ⟨h, Finset.Subset.refl _⟩
  | @die p _ =>
      refine ⟨?_, Finset.subset_insert _ _⟩
      intro q hq
      obtain ⟨hne, hq⟩ := Finset.mem_erase.mp hq
      obtain ⟨hpos, hdead⟩ := h q hq
      refine ⟨hpos, ?_⟩
      intro hmem
      rcases Finset.mem_insert.mp hmem with heq | hmem
      · exact hne heq
      · exact hdead hmem
  | exitEvent _ _ => exact ⟨h, Finset.Subset.refl _⟩
  | @scan probes opened _ =>
      obtain ⟨gc, hgc, _⟩ := afterScan_collect w probes opened
      rw [hgc]
      exact ⟨h, Finset.Subset.refl _⟩

section Invariant

variable {w : TenureWorld}

theorem TenureInv.init (h : TenureStart w) : TenureInv w where
  wf := by
    rw [h.tenant]
    exact .zeroed
  living := by
    intro p hp
    rw [h.life.running] at hp
    exact absurd hp (Finset.notMem_empty p)
  gone := by
    rw [h.reclaimed]
    exact Finset.empty_subset _
  held := by
    intro pid tenantId hpos hget
    rw [h.tenant, PidMapWf.zeroed.get_eq_some_iff hpos] at hget
    obtain ⟨i, hi⟩ := hget
    have hzero : (0 : Int) = pid := congrArg PidTenantMapping.pid hi
    omega

theorem reclaims_subset (w w' : LifeWorld) (e : LifeEvent) : reclaims w w' e ⊆ w.dead := by
  cases e with
  | exitEvent | scan => exact Finset.filter_subset _ _
  | start | publish | die => exact Finset.empty_subset _

/-- What a step reclaims was released before. -/
theorem released_of_reclaimed {p : ProcId} (hstep : LifeStep w.toLifeWorld e w')
    (hrel : ReleasedFirst w (.life e)) (hp : p ∈ reclaims w.toLifeWorld w' e) : Released w p := by
  cases hstep with
  | start | publish | die => exact absurd hp (Finset.notMem_empty p)
  | @exitEvent slot _ _ _ =>
      obtain ⟨hdead, i, hpub, hocc, hzero⟩ := Finset.mem_filter.mp hp
      -- the event empties its own slot at most
      by_cases hi : i = slot
      · subst hi
        exact hrel p hpub hdead
      · rw [LifeWorld.afterExitEvent, LifeWorld.afterCollect_gc,
          (exitEvent_entry hi w.gc).1] at hzero
        exact absurd hzero hocc
  | scan _ =>
      obtain ⟨hdead, i, hpub, _, _⟩ := Finset.mem_filter.mp hp
      exact hrel i p hpub hdead

theorem TenureInv.life (h : TenureInv w) (hstep : LifeStep w.toLifeWorld e w')
    (hrel : ReleasedFirst w (.life e)) :
    TenureInv (w.afterLife e w') := by
  obtain ⟨hwf, hmap⟩ := lifeStep_map hstep h.wf
  obtain ⟨hliving, hdead⟩ := lifeStep_living hstep h.living
  refine ⟨hwf, hliving, ?_, ?_⟩
  · exact (Finset.union_subset h.gone (reclaims_subset _ _ _)).trans hdead
  · intro pid tenantId hpos hget
    have hget : tenantGetProcessTenant pid w.gc.tenant = some tenantId :=
      (tenantGetProcessTenant_of_mappings hmap pid).symm.trans hget
    obtain ⟨b, rfl, hb, hnot⟩ := h.held pid tenantId hpos hget
    refine ⟨b, rfl, hb, ?_⟩
    intro hmem
    rcases Finset.mem_union.mp hmem with hmem | hmem
    · exact hnot hmem
    · rw [released_of_reclaimed hstep hrel hmem hb] at hget
      cases hget

theorem TenureInv.bind (h : TenureInv w) {p : ProcId} (hrun : p ∈ w.running)
    (tenantId : UInt32) : TenureInv (w.afterBind p tenantId) := by
  obtain ⟨hpos, hdead⟩ := h.living p hrun
  refine ⟨h.wf.bind hpos tenantId, h.living, h.gone, ?_⟩
  intro pid u hpid hget
  have hget : tenantGetProcessTenant pid (tenantBindProcess p.pid tenantId w.gc.tenant).2 =
      some u := hget
  show ∃ b, b.pid = pid ∧ (if (tenantBindProcess p.pid tenantId w.gc.tenant).1 = 0 then
    Function.update w.binder p.pid (some p) else w.binder) pid = some b ∧ b ∉ w.reclaimed
  by_cases hrc : Bindable w.gc.tenant p.pid tenantId
  · rw [if_pos (get_after_bind hrc).1]
    by_cases heq : pid = p.pid
    · subst heq
      exact ⟨p, rfl, Function.update_self _ _ _, fun hmem => hdead (h.gone hmem)⟩
    · rw [get_after_bind_ne _ _ heq (by omega)] at hget
      rw [Function.update_of_ne heq]
      exact h.held pid u hpid hget
  · rw [bind_failed hrc] at hget ⊢
    exact h.held pid u hpid hget

theorem TenureInv.manage (h : TenureInv w) {op : TenantOp}
    (hop : ∀ pid tenantId, op ≠ .bind pid tenantId) : TenureInv (w.afterManage op) := by
  refine ⟨h.wf.apply op, h.living, h.gone, ?_⟩
  intro pid u hpid hget
  rcases (tenantApply_get_iff h.wf op hpid u).mp hget with hbinds | ⟨hget, _⟩
  · cases op with
    | bind q t => exact absurd rfl (hop q t)
    | _ => exact hbinds.elim
  · exact h.held pid u hpid hget

theorem ReleasingStep.inv (h : TenureInv w) {e : TenureEvent} {w' : TenureWorld}
    (hstep : ReleasingStep w e w') : TenureInv w' := by
  obtain ⟨hrel, hstep⟩ := hstep
  cases hstep with
  | life hstep => exact h.life hstep hrel
  | bind hrun => exact h.bind hrun _
  | manage hop => exact h.manage hop

/-- With no mapping left, every ACTIVE tenant can be bound to. -/
theorem TenureInv.bindable (h : TenureInv w)
    (hall : ∀ pid b, w.binder pid = some b → b ∈ w.reclaimed) (pid : Int) {tenantId : UInt32}
    (hact : ActiveTenant w.gc.tenant tenantId) :
    (tenantBindProcess pid tenantId w.gc.tenant).1 = 0 := by
  rw [tenantBindProcess_eq_zero_iff]
  refine ⟨hact, .inr ⟨0, ?_⟩⟩
  by_contra hocc
  have hpos : 0 < mappedPids w.gc.tenant 0 := by
    have := h.wf.pid_nonneg 0
    omega
  have hget := (h.wf.get_eq_some_iff hpos).mpr ⟨0, rfl⟩
  obtain ⟨b, _, hb, hnot⟩ := h.held _ _ hpos hget
  exact hnot (hall _ b hb)

end Invariant

/-! ## A bound process dies -/

/-- Both segments are new, and the collector has nothing registered. -/
def freshWorld : TenureWorld where
  gc := ⟨SharedMemory.zeroed, zeroed, fun _ => .unregistered, []⟩
  running := ∅
  dead := ∅
  publisher := fun _ => none
  referent := fun _ => none
  binder := fun _ => none
  reclaimed := ∅

theorem freshWorld_start : TenureStart freshWorld :=
  ⟨⟨rfl, rfl, rfl, fun _ => rfl, fun _ => rfl⟩, rfl, rfl⟩

/-- Process 100 is dead, and its entry is still in the table. -/
structure Orphaned (w : TenureWorld) : Prop where
  slot : slotView 0 w.gc = ⟨100, 4096, ⟨1, 0, 0⟩, .unregistered⟩
  publisher : w.publisher 0 = some process100
  publishers : ∀ slot p, w.publisher slot = some p → p = process100
  running : w.running = ∅
  dead : w.dead = {process100}
  binder : w.binder = Function.update (fun _ => none) 100 (some process100)

/-- Tenant 1 is created, the process starts, binds itself, publishes and
dies. -/
def createdWorld : TenureWorld := freshWorld.afterManage (.create 1 none (some defaultQuota))

def startedWorld : TenureWorld :=
  createdWorld.afterLife (.start process100) (createdWorld.afterStart process100)

def boundWorld : TenureWorld := startedWorld.afterBind process100 1

def publishedWorld : TenureWorld :=
  boundWorld.afterLife (.publish process100 ⟨1, 0, 0⟩ (some stat100))
    (boundWorld.afterPublish process100 ⟨1, 0, 0⟩ (some stat100))

def diedWorld : TenureWorld :=
  publishedWorld.afterLife (.die process100) (publishedWorld.afterDeath process100)

theorem solo_bind : tenantBindProcess 100 1 (tenantCreate 1 none (some defaultQuota) zeroed).2 =
    (0, soloTenant 100 defaultQuota) := by
  have hcreate := tenantCreate_inactive (s := zeroed) (by decide) tenantIdx?_one rfl none
    (some defaultQuota)
  have hact : ((tenantCreate 1 none (some defaultQuota) zeroed).2.tenants 1).status =
      .active := by
    simp [hcreate, setTenant, freshTenant]
  have hfree : mappedPids (tenantCreate 1 none (some defaultQuota) zeroed).2 0 = 0 := by
    rw [hcreate]
    rfl
  have hrc := (tenantBindProcess_eq_zero_iff 100 1 _).mpr
    ⟨⟨1, tenantIdx?_one, hact⟩, .inr ⟨0, hfree⟩⟩
  exact Prod.ext hrc rfl

theorem boundWorld_spec :
    boundWorld.gc.tenant = soloTenant 100 defaultQuota ∧
      boundWorld.binder = Function.update (fun _ => none) 100 (some process100) := by
  refine ⟨rfl, ?_⟩
  show (if (tenantBindProcess 100 1 (tenantCreate 1 none (some defaultQuota) zeroed).2).1 = 0
    then _ else _) = _
  rw [solo_bind, if_pos rfl]
  rfl

theorem diedWorld_run :
    Run ReleasingStep freshWorld
      [.manage (.create 1 none (some defaultQuota)), .life (.start process100),
        .bind process100 1, .life (.publish process100 ⟨1, 0, 0⟩ (some stat100)),
        .life (.die process100)] diedWorld := by
  have hcreate : ReleasingStep freshWorld (.manage (.create 1 none (some defaultQuota)))
      createdWorld := ⟨trivial, .manage (by nofun)⟩
  have hnew : LifeStep createdWorld.toLifeWorld (.start process100)
      (createdWorld.afterStart process100) :=
    .start (Finset.notMem_empty _) (Finset.notMem_empty _) (by decide)
      (fun q hq => absurd hq (Finset.notMem_empty q))
  have hstart : ReleasingStep createdWorld (.life (.start process100)) startedWorld :=
    ⟨trivial, .life hnew⟩
  have halive : process100 ∈ startedWorld.running := Finset.mem_insert_self _ _
  have hbind : ReleasingStep startedWorld (.bind process100 1) boundWorld :=
    ⟨trivial, .bind halive⟩
  have hpublish : ReleasingStep boundWorld
      (.life (.publish process100 ⟨1, 0, 0⟩ (some stat100))) publishedWorld :=
    ⟨trivial, .life (.publish halive)⟩
  have hdie : ReleasingStep publishedWorld (.life (.die process100)) diedWorld :=
    ⟨trivial, .life (.die halive)⟩
  exact ((((Run.start.snoc hcreate).snoc hstart).snoc hbind).snoc hpublish).snoc hdie

theorem diedWorld_shm : diedWorld.gc.shm =
    storeUsage 0 ⟨1, 0, 0⟩ (claimSlot 0 100 4096 SharedMemory.zeroed) := by
  show (shmUpdateProcessResources 100 ⟨1, 0, 0⟩
    (shmReadProcStartTime (some stat100)) SharedMemory.zeroed).2 = _
  rw [stat100_read, SharedMemory.update_zeroed (by decide)]

theorem diedWorld_orphaned : Orphaned diedWorld where
  slot := by
    unfold slotView
    rw [diedWorld_shm]
    simp [storeUsage, claimSlot]
    rfl
  publisher := by
    have hpid : diedWorld.gc.shm.processPids 0 = 100 := by
      rw [diedWorld_shm]
      simp [claimSlot]
    exact if_pos hpid
  publishers := by
    intro slot p hp
    have hp : (if diedWorld.gc.shm.processPids slot = 100 then some process100 else none) =
      some p := hp
    split at hp
    · exact (Option.some.inj hp).symm
    · cases hp
  running := by decide
  dead := by decide
  binder := boundWorld_spec.2

theorem process100_pid_pos : 0 < process100.pid := by
  decide

/-- The dead process is unbound. -/
def unboundWorld : TenureWorld :=
  diedWorld.afterManage (.unbind ⟨process100.pid, process100_pid_pos⟩)

theorem unboundWorld_orphaned : Orphaned unboundWorld :=
  ⟨diedWorld_orphaned.slot, diedWorld_orphaned.publisher, diedWorld_orphaned.publishers,
    diedWorld_orphaned.running, diedWorld_orphaned.dead, diedWorld_orphaned.binder⟩

theorem unboundWorld_get : tenantGetProcessTenant 100 unboundWorld.gc.tenant = none := by
  have hinv : TenureInv diedWorld :=
    Run.invariant (.init freshWorld_start) (fun _ _ _ h hstep => hstep.inv h) diedWorld_run
  cases hget : tenantGetProcessTenant 100 unboundWorld.gc.tenant with
  | none => rfl
  | some u =>
      rcases (tenantApply_get_iff hinv.wf _ (by decide) u).mp hget with hbinds | ⟨_, hkept⟩
      · exact hbinds.elim
      · exact absurd rfl hkept

theorem unboundWorld_active : ActiveTenant unboundWorld.gc.tenant 1 := by
  have hsame : ledger unboundWorld.gc.tenant = ledger (soloTenant 100 defaultQuota) :=
    ledger_unbind 100 (soloTenant 100 defaultQuota)
  have hfresh := (soloTenant_fresh (show (100 : Int) ≠ 0 by decide) defaultQuota).ledger_eq
  rw [← hsame] at hfresh
  exact ⟨1, tenantIdx?_one, congrArg Ledger.status hfresh⟩

/-- The answers of the kernel about processes that are gone. -/
def goneProbes : Slot → SlotProbe := fun _ => ⟨-1, false, none⟩

/-- The scan finds the process gone and empties its entry. -/
theorem Orphaned.scan {w : TenureWorld} (h : Orphaned w) : ∃ w',
    TenureStep w (.life (.scan goneProbes fun _ => process100)) w' ∧
      process100 ∈ w'.reclaimed ∧ w'.running = ∅ ∧ w'.dead = {process100} ∧
      w'.binder = w.binder ∧ w'.gc.tenant = w.gc.tenant := by
  have hstep : LifeStep w.toLifeWorld (.scan goneProbes fun _ => process100)
      (w.afterScan goneProbes fun _ => process100) :=
    .scan fun _ _ hok => absurd hok (show ¬(0 : Int) ≤ -1 by decide)
  obtain ⟨gc, hgc, hview, htenant⟩ :=
    afterScan_collect w.toLifeWorld goneProbes fun _ => process100
  rw [hgc] at hstep
  have hocc : w.gc.shm.processPids 0 = 100 := congrArg SlotView.pid h.slot
  have hzero : gc.shm.processPids 0 = 0 := by
    rw [← slotView_pid, hview, h.slot]
    simp [SlotView.scan, registered, goneProbes, PidfdEntry.unregistered, gcIsProcessReallyAlive]
  refine ⟨_, .life hstep, ?_, h.running, h.dead, rfl, htenant⟩
  apply Finset.mem_union_right
  apply Finset.mem_filter.mpr
  refine ⟨?_, 0, h.publisher, ?_, hzero⟩
  · rw [h.dead]
    exact Finset.mem_singleton_self _
  · rw [hocc]
    decide

/-! ## The result -/

/-- **No mapping of a reclaimed process is left**, in every run in which the
mapping of each dead process is removed or replaced before its entry is
emptied: a reclaimed process that bound its pid last is not in the map, a pid
that is in the map was bound last by a process not reclaimed, and once all who
bound a pid are reclaimed every bind to an ACTIVE tenant succeeds. -/
theorem reclaimed_leaves_map {w₀ w : TenureWorld} {events : List TenureEvent}
    (hstart : TenureStart w₀) (hrun : Run ReleasingStep w₀ events w) :
    (∀ p ∈ w.reclaimed, 0 < p.pid → w.binder p.pid = some p →
        tenantGetProcessTenant p.pid w.gc.tenant = none) ∧
      (∀ pid tenantId, 0 < pid → tenantGetProcessTenant pid w.gc.tenant = some tenantId →
        ∃ b, b.pid = pid ∧ w.binder pid = some b ∧ b ∉ w.reclaimed) ∧
      ((∀ pid b, w.binder pid = some b → b ∈ w.reclaimed) →
        ∀ pid tenantId, ActiveTenant w.gc.tenant tenantId →
          (tenantBindProcess pid tenantId w.gc.tenant).1 = 0) := by
  have hinv : TenureInv w :=
    Run.invariant (.init hstart) (fun _ _ _ h hstep => hstep.inv h) hrun
  refine ⟨?_, hinv.held, fun hall pid tenantId hact => hinv.bindable hall pid hact⟩
  intro p hp hpos hb
  cases hget : tenantGetProcessTenant p.pid w.gc.tenant with
  | none => rfl
  | some tenantId =>
      obtain ⟨b, _, hb', hnot⟩ := hinv.held p.pid tenantId hpos hget
      rw [hb, Option.some.injEq] at hb'
      exact absurd (hb' ▸ hp) hnot

/-- The dead process is unbound before the scan: afterwards its pid is free, and
a process can be bound. -/
theorem unbound_then_reclaimed : ∃ events w,
    Run ReleasingStep freshWorld events w ∧ process100 ∈ w.reclaimed ∧
      tenantGetProcessTenant 100 w.gc.tenant = none ∧
      (tenantBindProcess 200 1 w.gc.tenant).1 = 0 := by
  have hunbind : ReleasingStep diedWorld
      (.manage (.unbind ⟨process100.pid, process100_pid_pos⟩)) unboundWorld :=
    ⟨trivial, .manage (by nofun)⟩
  obtain ⟨w, hscan, hmem, _, _, hbinder, htenant⟩ := unboundWorld_orphaned.scan
  have hreleased : ∀ slot p, unboundWorld.publisher slot = some p → p ∈ unboundWorld.dead →
      Released unboundWorld p := by
    intro slot p hp _ _
    obtain rfl := unboundWorld_orphaned.publishers slot p hp
    exact unboundWorld_get
  have hscan : ReleasingStep unboundWorld (.life (.scan goneProbes fun _ => process100)) w :=
    ⟨hreleased, hscan⟩
  have hrun := (diedWorld_run.snoc hunbind).snoc hscan
  have hall : ∀ pid b, w.binder pid = some b → b ∈ w.reclaimed := by
    intro pid b hb
    rw [hbinder, unboundWorld_orphaned.binder] at hb
    by_cases hpid : pid = 100
    · rw [hpid, Function.update_self, Option.some.injEq] at hb
      exact hb ▸ hmem
    · rw [Function.update_of_ne hpid] at hb
      cases hb
  have hlast : w.binder process100.pid = some process100 := by
    rw [hbinder, unboundWorld_orphaned.binder]
    exact Function.update_self _ _ _
  obtain ⟨hgone, _, hfree⟩ := reclaimed_leaves_map freshWorld_start hrun
  refine ⟨_, w, hrun, hmem, hgone process100 hmem process100_pid_pos hlast, hfree hall 200 1 ?_⟩
  rw [htenant]
  exact unboundWorld_active

/-- A process that gets the pid later. -/
def reused100 : ProcId := ⟨100, 43⟩

/-- Without the unbind, the scan reclaims the dead process and its mapping stays:
the next process with the pid is resolved to tenant 1 and has bound nothing. -/
theorem reclaimed_pid_inherited : ∃ events w,
    TenureStart freshWorld ∧ Run TenureStep freshWorld events w ∧
      process100 ∈ w.reclaimed ∧ w.binder 100 = some process100 ∧ reused100 ∈ w.running ∧
      tenantGetProcessTenant reused100.pid w.gc.tenant = some 1 := by
  obtain ⟨w, hscan, hmem, hrunning, hdead, hbinder, htenant⟩ := diedWorld_orphaned.scan
  have hstart : LifeStep w.toLifeWorld (.start reused100) (w.afterStart reused100) := by
    refine .start ?_ ?_ (by decide) ?_
    · rw [hrunning]
      exact Finset.notMem_empty _
    · rw [hdead]
      decide
    · rw [hrunning]
      exact fun q hq => absurd hq (Finset.notMem_empty q)
  have hrun := ((diedWorld_run.mono fun _ _ _ h => h.2).snoc hscan).snoc (.life hstart)
  refine ⟨_, _, freshWorld_start, hrun, Finset.mem_union_left _ hmem, ?_,
    Finset.mem_insert_self _ _, ?_⟩
  · show w.binder 100 = some process100
    rw [hbinder, diedWorld_orphaned.binder, Function.update_self]
  · show tenantGetProcessTenant 100 w.gc.tenant = some 1
    rw [htenant]
    exact soloTenant_get (by decide) defaultQuota

end MtRdma.Ports.TenantTenure
