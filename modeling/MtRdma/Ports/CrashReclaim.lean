import MtRdma.Ports.HookAccounting
import MtRdma.Ports.HookFrame
import MtRdma.Ports.SharedMemoryMap
import MtRdma.Ports.GcPaths

/-!
# What the collector gives back for a dead process

A process that dies takes its QPs with it, and the exit event of its pidfd
gives the tenant back what the entry of the process in the process table
records.  `ibv_create_qp` publishes that entry; `ibv_destroy_qp` does not.
The tenant is therefore left with an exact count when, at each death, the
entry still records the QPs the process has.

The invariant splits the tenant's count into the QPs that exist and, for each
dead process whose entry is still there, what the entry records.
-/

namespace MtRdma.Ports.CrashReclaim

open Verified.MachineInt
open Verified.SlotScan
open Verified.Runs
open SharedMemory
open SharedMemoryTenant
open RdmaHooks
open CollectorGc
open GcPaths

variable {s : SharedMemoryData} {slot : Slot} {r : HookReport}

/-! ## The published count -/

/-- The QP count that `shm_get_process_resources` reads for a pid. -/
def publishedQp (s : SharedMemoryData) (pid : Int) : Int :=
  match shmGetProcessResources pid s with
  | none => 0
  | some usage => usage.qpCount.toInt

theorem publishedQp_of_lookup {pid : Int} (hpid : 0 < pid)
    (hl : lookup s.processPids pid = some slot) :
    publishedQp s pid = (s.processStats slot).qpCount.toInt := by
  have hnot : ¬pid ≤ 0 := by omega
  simp [publishedQp, shmGetProcessResources, hnot, hl]

theorem publishedQp_absent {pid : Int} (hl : lookup s.processPids pid = none) :
    publishedQp s pid = 0 := by
  unfold publishedQp shmGetProcessResources
  rw [hl]
  split
  · rfl
  · rename_i usage heq
    split at heq
    · cases heq
    · obtain rfl := Option.some.inj heq
      rfl

theorem publishedQp_update_ne (h : TableWf s) {pid q : Int} (usage : ResourceUsage)
    (start : UInt64) (hq : 0 < q) (hne : q ≠ pid) :
    publishedQp (shmUpdateProcessResources pid usage start s).2 q = publishedQp s q := by
  unfold publishedQp
  rw [get_after_update_ne h usage start hq hne]

theorem publishedQp_clearSlot_ne (h : TableWf s) {q : Int} (hq : 0 < q)
    (hs : s.processPids slot ≠ 0) (hne : s.processPids slot ≠ q) :
    publishedQp (clearSlot slot s) q = publishedQp s q := by
  unfold publishedQp
  rw [get_after_clearSlot_ne h hq hs hne]

/-- All three totals are zero, which `shm_init` takes for a new segment. -/
def TotalsZero (s : SharedMemoryData) : Prop :=
  s.globalStats.qpCount = 0 ∧ s.globalStats.mrCount = 0 ∧ s.globalStats.memoryUsed = 0

/-- Initializing the segment forgets only what is published under zero
totals. -/
theorem publishedQp_shmInit {pid : Int} (hpid : 0 < pid)
    (h : ¬TotalsZero s ∨ publishedQp s pid = 0) :
    publishedQp (shmInit s) pid = publishedQp s pid := by
  by_cases hzero : TotalsZero s
  · have hempty : lookup (shmInit s).processPids pid = none := by
      rw [lookup_eq_none_iff]
      intro i
      unfold TotalsZero at hzero
      unfold SharedMemory.shmInit
      rw [if_pos hzero]
      exact hpid.ne
    rw [publishedQp_absent hempty]
    rcases h with hnot | hpub
    · exact absurd hzero hnot
    · exact hpub.symm
  · unfold TotalsZero at hzero
    unfold SharedMemory.shmInit
    rw [if_neg hzero]

/-! ## What a framed call does to the world -/

section Frame

variable {ι : Type} [DecidableEq ι] {tenantId : UInt32} {w : HookWorld ι} {i : ι} {call : HookCall}

theorem pid_afterCall (hframe : QpCallFrame tenantId (w.view i) (call.exec (w.view i)).2) (j : ι) :
    ((w.afterCall i call).procs j).pid = (w.procs j).pid := by
  show (Function.update w.procs i (call.exec (w.view i)).2.proc j).pid = (w.procs j).pid
  by_cases hj : j = i
  · rw [hj, Function.update_self]
    exact hframe.pid
  · rw [Function.update_of_ne hj]

/-- A framed call that creates only for the tenant. -/
structure FramedCall (tenantId : UInt32) (w : HookWorld ι) (i : ι) (call : HookCall) : Prop
    extends QpCallFrame tenantId (w.view i) (call.exec (w.view i)).2 where
  created : (call.exec (w.view i)).1.created.isSome →
    tenantGetProcessTenant (w.procs i).pid (call.exec (w.view i)).2.tenant = some tenantId

/-- The process of an object is still initialized and bound after a call, if
it was and if no other process has its pid. -/
theorem owner_afterCall (hframe : FramedCall tenantId w i call)
    {kind : ResourceKind} {x : ι × Nat} (hx : x ∈ (w.afterCall i call).live kind)
    (howner : x ∈ w.live kind → (w.procs x.1).hooksInit = true ∧
      tenantGetProcessTenant (w.procs x.1).pid w.tenant = some tenantId)
    (hother : x.1 ≠ i → (w.procs x.1).pid ≠ (w.procs i).pid ∧ (w.procs x.1).pid ≠ 0) :
    ((w.afterCall i call).procs x.1).hooksInit = true ∧
      tenantGetProcessTenant (w.procs x.1).pid (w.afterCall i call).tenant = some tenantId := by
  by_cases hxi : x.1 = i
  · have hself : (w.afterCall i call).procs x.1 = (call.exec (w.view i)).2.proc := by
      rw [hxi]
      exact Function.update_self i _ w.procs
    rw [hself]
    refine ⟨hframe.hooksInit, ?_⟩
    rcases mem_live_afterCall hx with hold | ⟨_, hnew⟩
    · obtain ⟨hdone, hbound⟩ := howner hold
      rw [hxi] at hdone hbound ⊢
      exact hframe.own hdone hbound
    · rw [hxi]
      exact hframe.created hnew
  · have hsame : (w.afterCall i call).procs x.1 = w.procs x.1 := Function.update_of_ne hxi _ w.procs
    rw [hsame]
    rcases mem_live_afterCall hx with hold | ⟨hown, _⟩
    · obtain ⟨hdone, hbound⟩ := howner hold
      obtain ⟨hpid, hzero⟩ := hother hxi
      exact ⟨hdone, (hframe.others _ hpid hzero).trans hbound⟩
    · exact absurd hown hxi

end Frame

/-! ## The world -/

section World

variable {ι : Type}

/-- The world of the hooks, with the processes that run and the dead ones that
still have an entry in the process table. -/
structure CrashWorld (ι : Type) extends HookWorld ι where
  running : Finset ι
  exited : Finset ι

def CrashWorld.pid (w : CrashWorld ι) (i : ι) : Int := (w.procs i).pid

/-- The QPs of process `i`. -/
def CrashWorld.qpsOf [DecidableEq ι] (w : CrashWorld ι) (i : ι) : Finset (ι × Nat) :=
  (w.live .qp).filter fun x => x.1 = i

/-- The two QP hooks. -/
inductive QpCall : HookCall → Prop
  | create (env : HookEnv) (real : QpInitAttr → Option Nat) (attr : QpInitAttr) :
      QpCall (.createQp env real attr)
  | destroy (env : HookEnv) (qp : Nat) (real : Int) : QpCall (.destroyQp env qp real)

/-! ## The invariant -/

variable {tenantId : UInt32} {t : TenantIdx} {w : CrashWorld ι} {i : ι} {call : HookCall}

/-- What the dead processes have still to give back. -/
def CrashWorld.owed (w : CrashWorld ι) : Nat :=
  ∑ i ∈ w.exited, (publishedQp w.shm (w.pid i)).toNat

structure CrashInv (tenantId : UInt32) (t : TenantIdx) (w : CrashWorld ι) : Prop where
  exact : QpExact (ledger w.tenant t) ((w.live .qp).card + w.owed)
  wf : TableWf w.shm
  disjoint : ∀ i ∈ w.exited, i ∉ w.running
  pid_pos : ∀ i, i ∈ w.running ∨ i ∈ w.exited → 0 < w.pid i
  pid_inj : ∀ i j, i ∈ w.running ∨ i ∈ w.exited → j ∈ w.running ∨ j ∈ w.exited →
    w.pid i = w.pid j → i = j
  owner : ∀ x ∈ w.live .qp, x.1 ∈ w.running ∧ (w.procs x.1).hooksInit = true ∧
    tenantGetProcessTenant (w.pid x.1) w.tenant = some tenantId
  entry : ∀ i ∈ w.exited, 0 ≤ publishedQp w.shm (w.pid i)
  bound : ∀ i ∈ w.exited, publishedQp w.shm (w.pid i) ≠ 0 →
    tenantGetProcessTenant (w.pid i) w.tenant = some tenantId

/-- No process and no QP yet, and a tenant that counts none. -/
structure CrashStart (tenantId : UInt32) (t : TenantIdx) (w : CrashWorld ι) : Prop where
  ne_zero : tenantId ≠ 0
  idx : tenantIdx? tenantId = some t
  exact : QpExact (ledger w.tenant t) 0
  wf : TableWf w.shm
  live : w.live .qp = ∅
  running : w.running = ∅
  exited : w.exited = ∅

theorem CrashStart.inv (h : CrashStart tenantId t w) : CrashInv tenantId t w := by
  have hexited : ∀ i, i ∉ w.exited := fun i => by simp [h.exited]
  have hnone : ∀ i, ¬(i ∈ w.running ∨ i ∈ w.exited) := fun i => by simp [h.running, h.exited]
  have howed : w.owed = 0 := by simp [CrashWorld.owed, h.exited]
  constructor
  case exact =>
    rw [h.live, howed]
    exact h.exact
  case wf => exact h.wf
  case disjoint => exact fun i hi => absurd hi (hexited i)
  case pid_pos => exact fun i hi => absurd hi (hnone i)
  case pid_inj => exact fun i _ hi => absurd hi (hnone i)
  case owner =>
    intro x hx
    rw [h.live] at hx
    exact absurd hx (Finset.notMem_empty x)
  case entry => exact fun i hi => absurd hi (hexited i)
  case bound => exact fun i hi => absurd hi (hexited i)

/-! ## Hook calls -/

theorem QpCall.kind (h : QpCall call) : call.kind = .qp := by
  cases h with
  | create | destroy => rfl

/-- A QP call moves the count of its tenant by its report, whatever part of
the count is not about existing QPs. -/
theorem qpExact_call {l l' : Ledger} {n : Nat} (h : QpExact l n) (hmove : CallMove l call r l')
    (hkind : call.kind = .qp) (hpos : r.destroyed.isSome → 1 ≤ n) : QpExact l' (r.recount n) := by
  cases hmove with
  | @createQp r _ _ _ hout =>
      have hexact := (h.createQp hout).1
      cases hqp : r.qp with
      | none | some => simpa [HookReport.recount, hqp] using hexact
  | regMr hmr _ _ _ =>
      rw [hkind] at hmr
      cases hmr
  | create hother _ =>
      rw [hkind] at hother
      rcases hother with hother | hother <;> cases hother
  | @destroy object r _ =>
      rw [hkind]
      by_cases hrc : r.rc = 0
      · have hn : 1 ≤ n := hpos (by simp [reportDestroy, hrc])
        simpa [HookReport.recount, reportDestroy, hrc] using h.uncount hn
      · simpa [HookReport.recount, reportDestroy, hrc] using h

theorem recount_add {n : Nat} (m : Nat) (hpos : r.destroyed.isSome → 1 ≤ n) :
    r.recount (n + m) = r.recount n + m := by
  unfold HookReport.recount
  cases hc : r.created with
  | some o =>
      simp only
      omega
  | none =>
      cases hd : r.destroyed with
      | some o =>
          have hn : 1 ≤ n := hpos (by rw [hd]; rfl)
          simp only
          omega
      | none => rfl

theorem qpCall_frame {w : HookWorld ι} (hne : tenantId ≠ 0) (hcall : QpCall call)
    (hadm : Admissible tenantId w i call) : FramedCall tenantId w i call := by
  cases hcall with
  | create env real attr =>
      obtain ⟨hmove, hget⟩ := ibvCreateQp_move real attr hne hadm.1.1 hadm.1.2
      rw [(hooksInitOnce_view env (w.view i)).1] at hget
      exact ⟨hmove.callFrame, hget⟩
  | destroy env qp real =>
      exact ⟨(ibvDestroyQp_move real hne hadm.1.2).callFrame, nofun⟩

/-- The entries of other processes survive a call. -/
theorem published_frame {v v' : View} (hwf : TableWf v.shm)
    (hframe : QpCallFrame tenantId v v') {q : Int} (hq : 0 < q) (hne : q ≠ v.proc.pid)
    (hsafe : v.proc.hooksInit = true ∨ ¬TotalsZero v.shm ∨ publishedQp v.shm q = 0) :
    publishedQp v'.shm q = publishedQp v.shm q := by
  obtain ⟨s, hinit, hshm⟩ := hframe.table
  have hs : TableWf s ∧ publishedQp s q = publishedQp v.shm q := by
    rcases hinit with rfl | ⟨hfirst, rfl⟩
    · exact ⟨hwf, rfl⟩
    · refine ⟨hwf.shmInit, publishedQp_shmInit hq ?_⟩
      rcases hsafe with hdone | hsafe
      · rw [hfirst] at hdone
        cases hdone
      · exact hsafe
  rcases hshm with hshm | ⟨usage, start, hshm⟩
  · rw [hshm]
    exact hs.2
  · rw [hshm, publishedQp_update_ne hs.1 usage start hq hne]
    exact hs.2

theorem tableWf_frame {v v' : View} (hwf : TableWf v.shm)
    (hframe : QpCallFrame tenantId v v') : TableWf v'.shm := by
  obtain ⟨s, hinit, hshm⟩ := hframe.table
  have hs : TableWf s := by
    rcases hinit with rfl | ⟨_, rfl⟩
    · exact hwf
    · exact hwf.shmInit
  rcases hshm with hshm | ⟨usage, start, hshm⟩
  · rw [hshm]
    exact hs
  · rw [hshm]
    exact hs.update _ _ _

/-! ## Steps -/

/-- What can happen. -/
inductive CrashEvent (ι : Type) where
  | start (i : ι) (p : Process)
  | hook (i : ι) (call : HookCall)
  | die (i : ι)
  | reclaim (i : ι) (slot : Slot) (pidfds : Slot → PidfdEntry)

/-- The collector at the moment of an exit event. -/
def CrashWorld.gc (w : CrashWorld ι) (pidfds : Slot → PidfdEntry) : GcState :=
  ⟨w.shm, w.tenant, pidfds, []⟩

variable [DecidableEq ι]

/-- Process `i` makes a call. -/
def CrashWorld.afterCall (w : CrashWorld ι) (i : ι) (call : HookCall) : CrashWorld ι :=
  { w with toHookWorld := w.toHookWorld.afterCall i call }

/-- A process appears with the static variables `p`. -/
def CrashWorld.afterStart (w : CrashWorld ι) (i : ι) (p : Process) : CrashWorld ι :=
  { w with procs := Function.update w.procs i p, running := insert i w.running }

/-- Process `i` dies.  The kernel destroys its QPs; the collector has something
to do if there is an entry. -/
def CrashWorld.afterDeath (w : CrashWorld ι) (i : ι) : CrashWorld ι :=
  { w with
    live := Function.update w.live .qp ((w.live .qp).filter fun x => ¬x.1 = i)
    running := w.running.erase i
    exited := if (lookup w.shm.processPids (w.pid i)).isSome then insert i w.exited
      else w.exited }

/-- The exit event of `slot` for the dead process `i`. -/
def CrashWorld.afterExit (w : CrashWorld ι) (i : ι) (slot : Slot) (pidfds : Slot → PidfdEntry) :
    CrashWorld ι :=
  { w with
    shm := (gcHandleProcessExit slot (w.gc pidfds)).shm
    tenant := (gcHandleProcessExit slot (w.gc pidfds)).tenant
    exited := w.exited.erase i }

/-- The steps of a run.  A new process may be forked, so its static variables
are arbitrary; its pid is not that of a running process or of a dead one whose
entry is still there.  An exit event comes for a slot that holds the entry of
the dead process and was registered for it. -/
inductive CrashStep (tenantId : UInt32) : CrashWorld ι → CrashEvent ι → CrashWorld ι → Prop
  | start {w : CrashWorld ι} {i : ι} {p : Process} : i ∉ w.running → i ∉ w.exited → 0 < p.pid →
      (∀ j, j ∈ w.running ∨ j ∈ w.exited → w.pid j ≠ p.pid) →
      CrashStep tenantId w (.start i p) (w.afterStart i p)
  | hook {w : CrashWorld ι} {i : ι} {call : HookCall} : i ∈ w.running → QpCall call →
      Admissible tenantId w.toHookWorld i call →
      CrashStep tenantId w (.hook i call) (w.afterCall i call)
  | die {w : CrashWorld ι} {i : ι} : i ∈ w.running →
      CrashStep tenantId w (.die i) (w.afterDeath i)
  | reclaim {w : CrashWorld ι} {i : ι} {slot : Slot} {pidfds : Slot → PidfdEntry} :
      i ∈ w.exited → w.shm.processPids slot = w.pid i → SlotUnchanged slot (w.gc pidfds) →
      CrashStep tenantId w (.reclaim i slot pidfds) (w.afterExit i slot pidfds)

/-- What the entries have to satisfy when a process dies, and what its first
call must not find. -/
def EntriesFaithful (w : CrashWorld ι) : CrashEvent ι → Prop
  | .die i => publishedQp w.shm (w.pid i) = (w.qpsOf i).card
  | .hook i _ => (w.procs i).hooksInit = true ∨ ¬TotalsZero w.shm ∨
      ∀ j ∈ w.exited, publishedQp w.shm (w.pid j) = 0
  | _ => True

/-- A step in a state that meets the condition. -/
def FaithfulStep (tenantId : UInt32) (w : CrashWorld ι) (e : CrashEvent ι) (w' : CrashWorld ι) :
    Prop :=
  EntriesFaithful w e ∧ CrashStep tenantId w e w'

/-! ## Hook calls keep the invariant -/

/-- After a call the count has moved by the report, and nothing is owed that
was not owed before. -/
theorem CrashInv.exact_afterCall (hne : tenantId ≠ 0) (ht : tenantIdx? tenantId = some t)
    (h : CrashInv tenantId t w) (hcall : QpCall call)
    (hadm : Admissible tenantId w.toHookWorld i call)
    (howed : (w.afterCall i call).owed = w.owed) :
    QpExact (ledger (w.afterCall i call).tenant t)
      (((w.afterCall i call).live .qp).card + (w.afterCall i call).owed) := by
  have hcard : ((w.afterCall i call).live .qp).card =
      (call.exec (w.view i)).1.recount (w.live .qp).card := by
    have hcounts := congrFun hadm.counts .qp
    rw [hcall.kind, Function.update_self] at hcounts
    exact hcounts
  have hpos : (call.exec (w.view i)).1.destroyed.isSome → 1 ≤ (w.live .qp).card := by
    intro hd
    have hpos := hadm.destroyed_pos hd
    rw [hcall.kind] at hpos
    exact hpos
  have hmove := hadm.move hne ht h.exact.active
  rw [hcard, howed, ← recount_add _ hpos]
  exact qpExact_call h.exact hmove hcall.kind (fun hd => Nat.le_add_right_of_le (hpos hd))

theorem CrashInv.hook (hne : tenantId ≠ 0) (ht : tenantIdx? tenantId = some t)
    (h : CrashInv tenantId t w) (hi : i ∈ w.running) (hcall : QpCall call)
    (hadm : Admissible tenantId w.toHookWorld i call)
    (hsafe : EntriesFaithful w (.hook i call)) : CrashInv tenantId t (w.afterCall i call) := by
  obtain ⟨hframe, hcreated⟩ := qpCall_frame hne hcall hadm
  have hpid : ∀ j, (w.afterCall i call).pid j = w.pid j := pid_afterCall hframe
  have hother : ∀ j, j ∈ w.running ∨ j ∈ w.exited → j ≠ i → w.pid j ≠ w.pid i := by
    intro j hj hji heq
    exact hji (h.pid_inj j i hj (.inl hi) heq)
  have hexited : ∀ j ∈ w.exited, j ≠ i := by
    intro j hj hji
    exact h.disjoint j hj (hji ▸ hi)
  have hpub : ∀ j ∈ w.exited, publishedQp (w.afterCall i call).shm (w.pid j) =
      publishedQp w.shm (w.pid j) := by
    intro j hj
    refine published_frame h.wf hframe (h.pid_pos j (.inr hj))
      (hother j (.inr hj) (hexited j hj)) ?_
    rcases hsafe with hdone | hsafe | hzero
    · exact .inl hdone
    · exact .inr (.inl hsafe)
    · exact .inr (.inr (hzero j hj))
  have hget : ∀ j, j ∈ w.running ∨ j ∈ w.exited → j ≠ i →
      tenantGetProcessTenant (w.pid j) (w.afterCall i call).tenant =
        tenantGetProcessTenant (w.pid j) w.tenant := by
    intro j hj hji
    exact hframe.others _ (hother j hj hji) (h.pid_pos j hj).ne'
  constructor
  case exact =>
    apply h.exact_afterCall hne ht hcall hadm
    refine Finset.sum_congr rfl ?_
    intro j hj
    rw [hpid, hpub j hj]
  case wf => exact tableWf_frame h.wf hframe
  case disjoint => exact h.disjoint
  case pid_pos =>
    intro j hj
    rw [hpid]
    exact h.pid_pos j hj
  case pid_inj =>
    intro j k hj hk heq
    rw [hpid, hpid] at heq
    exact h.pid_inj j k hj hk heq
  case owner =>
    intro x hx
    have hrun : x.1 ∈ w.running := by
      rcases mem_live_afterCall hx with hold | ⟨hxi, _⟩
      · exact (h.owner x hold).1
      · exact hxi ▸ hi
    rw [hpid]
    refine ⟨hrun, owner_afterCall ⟨hframe, hcreated⟩ hx (fun hold => (h.owner x hold).2) ?_⟩
    intro hxi
    exact ⟨hother x.1 (.inl hrun) hxi, (h.pid_pos x.1 (.inl hrun)).ne'⟩
  case entry =>
    intro j hj
    rw [hpid, hpub j hj]
    exact h.entry j hj
  case bound =>
    intro j hj
    rw [hpid, hpub j hj, hget j (.inr hj) (hexited j hj)]
    exact h.bound j hj

/-! ## Births and deaths keep the invariant -/

theorem pid_afterStart_self (w : CrashWorld ι) (i : ι) (p : Process) :
    (w.afterStart i p).pid i = p.pid := by
  simp [CrashWorld.afterStart, CrashWorld.pid]

/-- The processes that were there are as they were. -/
theorem procs_afterStart {w : CrashWorld ι} {i : ι} (hnew : i ∉ w.running) (hnew' : i ∉ w.exited)
    (p : Process) {j : ι} (hj : j ∈ w.running ∨ j ∈ w.exited) :
    (w.afterStart i p).procs j = w.procs j := by
  apply Function.update_of_ne
  rintro rfl
  exact hj.elim hnew hnew'

/-- Whoever is there afterwards is the new process or was there before. -/
theorem known_afterStart {w : CrashWorld ι} {i : ι} {p : Process} {j : ι}
    (hj : j ∈ (w.afterStart i p).running ∨ j ∈ (w.afterStart i p).exited) :
    j = i ∨ (j ∈ w.running ∨ j ∈ w.exited) := by
  rcases hj with hj | hj
  · exact (Finset.mem_insert.mp hj).imp_right .inl
  · exact .inr (.inr hj)

theorem CrashInv.start (h : CrashInv tenantId t w) {p : Process} (hnew : i ∉ w.running)
    (hnew' : i ∉ w.exited) (hpos : 0 < p.pid)
    (hvacant : ∀ j, j ∈ w.running ∨ j ∈ w.exited → w.pid j ≠ p.pid) :
    CrashInv tenantId t (w.afterStart i p) := by
  have hpid : ∀ j, j ∈ w.running ∨ j ∈ w.exited → (w.afterStart i p).pid j = w.pid j :=
    fun j hj => congrArg Process.pid (procs_afterStart hnew hnew' p hj)
  constructor
  case exact =>
    have howed : (w.afterStart i p).owed = w.owed := by
      refine Finset.sum_congr rfl ?_
      intro j hj
      rw [hpid j (.inr hj)]
      rfl
    rw [howed]
    exact h.exact
  case wf => exact h.wf
  case disjoint =>
    intro j hj hmem
    rcases Finset.mem_insert.mp hmem with rfl | hmem
    · exact hnew' hj
    · exact h.disjoint j hj hmem
  case pid_pos =>
    intro j hj
    rcases known_afterStart hj with rfl | hold
    · rw [pid_afterStart_self]
      exact hpos
    · rw [hpid j hold]
      exact h.pid_pos j hold
  case pid_inj =>
    intro j k hj hk heq
    rcases known_afterStart hj with rfl | hj'
    · rcases known_afterStart hk with rfl | hk'
      · rfl
      · rw [pid_afterStart_self, hpid k hk'] at heq
        exact absurd heq.symm (hvacant k hk')
    · rcases known_afterStart hk with rfl | hk'
      · rw [pid_afterStart_self, hpid j hj'] at heq
        exact absurd heq (hvacant j hj')
      · rw [hpid j hj', hpid k hk'] at heq
        exact h.pid_inj j k hj' hk' heq
  case owner =>
    intro x hx
    obtain ⟨hrun, hdone, hbound⟩ := h.owner x hx
    rw [procs_afterStart hnew hnew' p (.inl hrun), hpid x.1 (.inl hrun)]
    exact ⟨Finset.mem_insert_of_mem hrun, hdone, hbound⟩
  case entry =>
    intro j hj
    rw [hpid j (.inr hj)]
    exact h.entry j hj
  case bound =>
    intro j hj
    rw [hpid j (.inr hj)]
    exact h.bound j hj

theorem live_afterDeath (w : CrashWorld ι) (i : ι) :
    (w.afterDeath i).live .qp = (w.live .qp).filter fun x => ¬x.1 = i := by
  simp [CrashWorld.afterDeath]

theorem mem_exited_afterDeath {j : ι} (h : j ∈ (w.afterDeath i).exited) :
    j = i ∨ j ∈ w.exited := by
  unfold CrashWorld.afterDeath at h
  simp only at h
  split at h
  · exact Finset.mem_insert.mp h
  · exact .inr h

/-- What a process had moves from the QPs that exist to what its entry owes. -/
theorem card_add_owed_afterDeath (hnot : i ∉ w.exited)
    (hpub : publishedQp w.shm (w.pid i) = (w.qpsOf i).card) :
    ((w.afterDeath i).live .qp).card + (w.afterDeath i).owed = (w.live .qp).card + w.owed := by
  have hsplit : (w.qpsOf i).card + ((w.live .qp).filter fun x => ¬x.1 = i).card =
      (w.live .qp).card :=
    Finset.card_filter_add_card_filter_not _
  rw [live_afterDeath]
  cases hl : lookup w.shm.processPids (w.pid i) with
  | none =>
      -- without an entry the process has no QPs either
      have hzero := publishedQp_absent hl
      have howed : (w.afterDeath i).owed = w.owed := by
        have hexited : (w.afterDeath i).exited = w.exited := by
          simp [CrashWorld.afterDeath, hl]
        unfold CrashWorld.owed
        rw [hexited]
        rfl
      omega
  | some slot =>
      have howed : (w.afterDeath i).owed = (w.qpsOf i).card + w.owed := by
        have hexited : (w.afterDeath i).exited = insert i w.exited := by
          simp [CrashWorld.afterDeath, hl]
        unfold CrashWorld.owed
        rw [hexited, Finset.sum_insert hnot]
        show (publishedQp w.shm (w.pid i)).toNat + _ = _
        rw [hpub, Int.toNat_natCast]
        rfl
      omega

theorem CrashInv.die (h : CrashInv tenantId t w) (hi : i ∈ w.running)
    (hfaithful : EntriesFaithful w (.die i)) : CrashInv tenantId t (w.afterDeath i) := by
  have hpub : publishedQp w.shm (w.pid i) = (w.qpsOf i).card := hfaithful
  have hnot : i ∉ w.exited := fun hmem => h.disjoint i hmem hi
  have hold : ∀ j, j ∈ (w.afterDeath i).running ∨ j ∈ (w.afterDeath i).exited →
      j ∈ w.running ∨ j ∈ w.exited := by
    intro j hj
    rcases hj with hj | hj
    · exact .inl (Finset.mem_of_mem_erase hj)
    · rcases mem_exited_afterDeath hj with rfl | hj
      · exact .inl hi
      · exact .inr hj
  constructor
  case exact =>
    rw [card_add_owed_afterDeath hnot hpub]
    exact h.exact
  case wf => exact h.wf
  case disjoint =>
    intro j hj hrun
    rcases mem_exited_afterDeath hj with rfl | hj
    · exact Finset.notMem_erase _ _ hrun
    · exact h.disjoint j hj (Finset.mem_of_mem_erase hrun)
  case pid_pos => exact fun j hj => h.pid_pos j (hold j hj)
  case pid_inj => exact fun j k hj hk => h.pid_inj j k (hold j hj) (hold k hk)
  case owner =>
    intro x hx
    rw [live_afterDeath, Finset.mem_filter] at hx
    obtain ⟨hrun, hrest⟩ := h.owner x hx.1
    exact ⟨Finset.mem_erase_of_ne_of_mem hx.2 hrun, hrest⟩
  case entry =>
    intro j hj
    rcases mem_exited_afterDeath hj with rfl | hj
    · show 0 ≤ publishedQp w.shm (w.pid j)
      omega
    · exact h.entry j hj
  case bound =>
    intro j hj hne
    rcases mem_exited_afterDeath hj with rfl | hj
    · -- a process with QPs is bound
      change publishedQp w.shm (w.pid j) ≠ 0 at hne
      have hpos : 0 < (w.qpsOf j).card := by omega
      obtain ⟨x, hx⟩ := Finset.card_pos.mp hpos
      obtain ⟨hlive, hxj⟩ := Finset.mem_filter.mp hx
      have hbound := (h.owner x hlive).2.2
      rw [hxj] at hbound
      exact hbound
    · exact h.bound j hj hne

/-! ## Exit events keep the invariant -/

/-- Taking the count of a dead process out of the tenant's. -/
theorem qpExact_reclaimed {l : Ledger} {n k : Nat} {dead : ResourceUsage} (h : QpExact l n)
    (hk : dead.qpCount.toInt = k) (hle : k ≤ n) :
    QpExact (withUsage l (reclaimedUsage l.usage dead)) (n - k) := by
  refine ⟨h.active, h.quota, ?_⟩
  show (if dead.qpCount < l.usage.qpCount then l.usage.qpCount - dead.qpCount else 0).toInt =
    ((n - k : Nat) : Int)
  have hqp := h.qp
  rw [toInt_clamped_sub (by omega) (by omega)]
  omega

/-- What the exit event does to the tenant of a dead process that owes
`k`. -/
theorem gcAdjustTenant_exact {pid : Int} {dead : ResourceUsage} {s : TenantSharedMemory} {n k : Nat}
    (hne : tenantId ≠ 0) (ht : tenantIdx? tenantId = some t) (h : QpExact (ledger s t) n)
    (hpid : 0 < pid) (hk : dead.qpCount.toInt = k) (hle : k ≤ n)
    (hbound : k ≠ 0 → tenantGetProcessTenant pid s = some tenantId) :
    QpExact (ledger (gcAdjustTenant pid dead s) t) (n - k) ∧
      (gcAdjustTenant pid dead s).pidMappings = s.pidMappings := by
  by_cases hzero : k = 0
  · have hnot : ¬0 < dead.qpCount := by
      rw [Int32.lt_iff_toInt_lt]
      show ¬(0 : Int) < _
      omega
    rw [gcAdjustTenant_noQp s hnot, hzero]
    exact ⟨h, rfl⟩
  · have hpos : 0 < dead.qpCount := by
      rw [Int32.lt_iff_toInt_lt]
      show (0 : Int) < _
      omega
    have hcharged : ChargedTenant pid s t :=
      ⟨hpid, h.active, tenantId, hbound hzero, UInt32.pos_iff_ne_zero.mpr hne, ht⟩
    rw [gcAdjustTenant_charged hcharged hpos]
    refine ⟨?_, rfl⟩
    rw [ledger_setUsage_self]
    exact qpExact_reclaimed h hk hle

theorem afterExit_segments (w : CrashWorld ι) (i : ι) {pidfds : Slot → PidfdEntry}
    (hocc : w.shm.processPids slot ≠ 0) (hreg : SlotUnchanged slot (w.gc pidfds)) :
    (w.afterExit i slot pidfds).shm = clearSlot slot w.shm ∧
      (w.afterExit i slot pidfds).tenant =
        gcAdjustTenant (w.shm.processPids slot) (w.shm.processStats slot) w.tenant := by
  rcases gcHandleProcessExit_cases slot (w.gc pidfds) with ⟨hno, _⟩ | ⟨_, _, hshm, htenant⟩
  · exact absurd ⟨hreg, hocc⟩ hno
  · exact ⟨hshm, htenant⟩

/-- The tenant gets back what the exited process owed, and no pid moves. -/
theorem CrashInv.adjust_afterExit (hne : tenantId ≠ 0) (ht : tenantIdx? tenantId = some t)
    (h : CrashInv tenantId t w) {pidfds : Slot → PidfdEntry} (hi : i ∈ w.exited)
    (hslot : w.shm.processPids slot = w.pid i) (hreg : SlotUnchanged slot (w.gc pidfds)) :
    QpExact (ledger (w.afterExit i slot pidfds).tenant t)
        ((w.live .qp).card +
          ∑ j ∈ w.exited.erase i, (publishedQp w.shm (w.pid j)).toNat) ∧
      (w.afterExit i slot pidfds).tenant.pidMappings = w.tenant.pidMappings := by
  have hpos := h.pid_pos i (.inr hi)
  have hocc : w.shm.processPids slot ≠ 0 := by omega
  have htenant := (afterExit_segments w i hocc hreg).2
  rw [hslot] at htenant
  -- the slot is the one whose count the process owes
  have hl : lookup w.shm.processPids (w.pid i) = some slot := by
    rw [← hslot]
    exact h.wf.distinct.lookup_eq hocc
  have hk : (w.shm.processStats slot).qpCount.toInt =
      ((publishedQp w.shm (w.pid i)).toNat : Nat) := by
    have hentry := h.entry i hi
    rw [publishedQp_of_lookup hpos hl] at hentry ⊢
    omega
  have hsum : w.owed = (publishedQp w.shm (w.pid i)).toNat +
      ∑ j ∈ w.exited.erase i, (publishedQp w.shm (w.pid j)).toNat :=
    (Finset.add_sum_erase _ _ hi).symm
  have hbound : (publishedQp w.shm (w.pid i)).toNat ≠ 0 →
      tenantGetProcessTenant (w.pid i) w.tenant = some tenantId := by
    intro hne'
    apply h.bound i hi
    omega
  have hrest : (w.live .qp).card + w.owed - (publishedQp w.shm (w.pid i)).toNat =
      (w.live .qp).card + ∑ j ∈ w.exited.erase i, (publishedQp w.shm (w.pid j)).toNat := by
    omega
  rw [htenant, ← hrest]
  exact gcAdjustTenant_exact hne ht h.exact hpos hk (by omega) hbound

theorem CrashInv.reclaim (hne : tenantId ≠ 0) (ht : tenantIdx? tenantId = some t)
    (h : CrashInv tenantId t w) {pidfds : Slot → PidfdEntry} (hi : i ∈ w.exited)
    (hslot : w.shm.processPids slot = w.pid i) (hreg : SlotUnchanged slot (w.gc pidfds)) :
    CrashInv tenantId t (w.afterExit i slot pidfds) := by
  have hpos := h.pid_pos i (.inr hi)
  have hocc : w.shm.processPids slot ≠ 0 := by omega
  have hshm := (afterExit_segments w i hocc hreg).1
  obtain ⟨hexact, hmap⟩ := h.adjust_afterExit hne ht hi hslot hreg
  have hpub : ∀ j ∈ w.exited.erase i,
      publishedQp (w.afterExit i slot pidfds).shm (w.pid j) = publishedQp w.shm (w.pid j) := by
    intro j hj
    obtain ⟨hji, hj⟩ := Finset.mem_erase.mp hj
    rw [hshm]
    refine publishedQp_clearSlot_ne h.wf (h.pid_pos j (.inr hj)) hocc ?_
    rw [hslot]
    intro heq
    exact hji (h.pid_inj j i (.inr hj) (.inr hi) heq.symm)
  have hget : ∀ q, tenantGetProcessTenant q (w.afterExit i slot pidfds).tenant =
      tenantGetProcessTenant q w.tenant := tenantGetProcessTenant_of_mappings hmap
  have hold : ∀ j, j ∈ w.running ∨ j ∈ w.exited.erase i → j ∈ w.running ∨ j ∈ w.exited :=
    fun j hj => hj.imp_right Finset.mem_of_mem_erase
  constructor
  case exact =>
    have howed : (w.afterExit i slot pidfds).owed =
        ∑ j ∈ w.exited.erase i, (publishedQp w.shm (w.pid j)).toNat :=
      Finset.sum_congr rfl fun j hj => congrArg Int.toNat (hpub j hj)
    rw [howed]
    exact hexact
  case wf =>
    rw [hshm]
    exact h.wf.clearSlot slot
  case disjoint => exact fun j hj => h.disjoint j (Finset.mem_of_mem_erase hj)
  case pid_pos => exact fun j hj => h.pid_pos j (hold j hj)
  case pid_inj => exact fun j k hj hk => h.pid_inj j k (hold j hj) (hold k hk)
  case owner =>
    intro x hx
    obtain ⟨hrun, hdone, hx⟩ := h.owner x hx
    exact ⟨hrun, hdone, (hget _).trans hx⟩
  case entry =>
    intro j hj
    exact (hpub j hj).symm ▸ h.entry j (Finset.mem_of_mem_erase hj)
  case bound =>
    intro j hj hne'
    refine (hget _).trans (h.bound j (Finset.mem_of_mem_erase hj) ?_)
    exact fun hzero => hne' ((hpub j hj).trans hzero)

/-! ## Runs -/

theorem FaithfulStep.inv {e : CrashEvent ι} {w' : CrashWorld ι} (hne : tenantId ≠ 0)
    (ht : tenantIdx? tenantId = some t) (h : CrashInv tenantId t w)
    (hstep : FaithfulStep tenantId w e w') : CrashInv tenantId t w' := by
  obtain ⟨hfaithful, hstep⟩ := hstep
  cases hstep with
  | start hnew hnew' hpos hvacant => exact h.start hnew hnew' hpos hvacant
  | hook hi hcall hadm => exact h.hook hne ht hi hcall hadm hfaithful
  | die hi => exact h.die hi hfaithful
  | reclaim hi hslot hreg => exact h.reclaim hne ht hi hslot hreg

end World

/-! ## Processes of tenant 1 that are ready to create QPs -/

/-- A settled process without restrictions. -/
structure Ready (pid : Int) (p : Process) : Prop where
  settled : Settled quietEnv p
  pid : p.pid = pid
  enabled : rdmaInterceptIsEnabled p = true
  createQp : p.realVerbs.createQp = true
  destroyQp : p.realVerbs.destroyQp = true
  unrestricted : p.intercept.config.enableQpControl = false
  shmMapped : p.shmMapped = true

theorem Ready.settledProcess (pid : Int) : Ready pid (settledProcess pid) :=
  ⟨settledProcess_settled pid, rfl, rfl, rfl, rfl, rfl, rfl⟩

/-- The real verb answers with QP `k`. -/
def createCall (k : Nat) : HookCall := .createQp quietEnv (fun _ => some k) ⟨.rc, 1, 1⟩

def destroyCall (k : Nat) : HookCall := .destroyQp quietEnv k 0

section Ready

variable {v : View} {pid : Int} {n : Nat}

theorem Ready.resolves (h : Ready pid v.proc)
    (hget : tenantGetProcessTenant pid v.tenant = some 1) :
    getCurrentTenantId quietEnv v = (1, v) := by
  rw [h.settled.getCurrentTenantId, h.pid, hget]
  rfl

theorem Ready.create (h : Ready pid v.proc)
    (hget : tenantGetProcessTenant pid v.tenant = some 1) (hexact : QpExact (ledger v.tenant 1) n)
    (hroom : n < (ledger v.tenant 1).quota.maxQpPerTenant.toNat) (k : Nat) :
    ((createCall k).exec v).1 = ⟨some k, none, true⟩ ∧
      Ready pid ((createCall k).exec v).2.proc ∧
      ((createCall k).exec v).2.shm =
        (shmUpdateProcessResources pid (ownUsage (countOwnQp v.proc)) 0 v.shm).2 := by
  have hres := h.resolves hget
  have hone : (getCurrentTenantId quietEnv v).1 = 1 := congrArg Prod.fst hres
  have hne : (getCurrentTenantId quietEnv v).1 ≠ 0 := by
    rw [hone]
    decide
  have hgranted : (tenantStep quietEnv v).1 = some (true, 1) := by
    have hout := tenantStep_outcome (by decide : (1 : UInt32) ≠ 0) tenantIdx?_one hone
      hexact.active
    generalize (tenantStep quietEnv v).1 = decision at hout ⊢
    generalize ledger (tenantStep quietEnv v).2.tenant 1 = l at hout
    cases hout with
    | reserved _ => rfl
    | overQuota hquota =>
        rw [hexact.clampQp, UInt32.le_iff_toNat_le] at hquota
        have hval := toNat_toUInt32 (x := (ledger v.tenant 1).usage.qpCount)
          (by rw [hexact.qp]; omega)
        rw [hexact.qp] at hval
        omega
  obtain ⟨m, hlatch⟩ := latchMandatory_view quietEnv v
  have hview : (tenantStep quietEnv v).2 =
      { v with
        proc := { v.proc with mandatory := m }
        tenant := (tenantTryAllocateQp 1 v.tenant).2 } := by
    rw [tenantStep_bound hne, hres]
    simp only
    rw [hlatch]
  have hverb : v.proc.realVerbs.createQp ≠ false := by rw [h.createQp]; decide
  have hcheck : checkQpCreationRestrictions ⟨.rc, 1, 1⟩ v = true := by
    unfold checkQpCreationRestrictions
    rw [if_pos h.unrestricted]
  have hcreate : ibvCreateQp quietEnv (fun _ => some k) ⟨.rc, 1, 1⟩ v =
      createForTenant quietEnv (fun _ => some k) ⟨.rc, 1, 1⟩ v := by
    unfold ibvCreateQp
    simp only [h.settled.hooksInitOnce]
    rw [if_neg hverb, if_neg (by simp [h.enabled]), if_neg (by simp [hcheck])]
  unfold createCall HookCall.exec
  simp only
  rw [hcreate]
  unfold createForTenant
  rw [hgranted, hview]
  simp only [createAndSettle, publish, countOwnQp, h.shmMapped, if_true]
  refine ⟨rfl, ?_, ?_⟩
  · exact ⟨⟨h.settled.cgroup, h.settled.hooksInit, h.settled.tenantInitialized,
      h.settled.cachedPid⟩, h.pid, h.enabled, h.createQp, h.destroyQp, h.unrestricted, rfl⟩
  · rw [h.pid]
    rfl

theorem Ready.destroy (h : Ready pid v.proc)
    (hget : tenantGetProcessTenant pid v.tenant = some 1) (k : Nat) :
    ((destroyCall k).exec v).1 = ⟨none, some k, false⟩ ∧
      Ready pid ((destroyCall k).exec v).2.proc ∧ ((destroyCall k).exec v).2.shm = v.shm := by
  have hready : Ready pid (uncountOwnQp v.proc) :=
    ⟨⟨h.settled.cgroup, h.settled.hooksInit, h.settled.tenantInitialized, h.settled.cachedPid⟩,
      h.pid, h.enabled, h.createQp, h.destroyQp, h.unrestricted, h.shmMapped⟩
  have hres := hready.resolves (v := { v with proc := uncountOwnQp v.proc }) hget
  have hdestroy : ibvDestroyQp quietEnv 0 v =
      (⟨0, none, true⟩, updateTenantResourceCount 1 .qp (-1)
        { v with proc := uncountOwnQp v.proc }) := by
    unfold ibvDestroyQp
    simp only [h.settled.hooksInitOnce, hres]
    rw [if_neg (by simp [h.destroyQp]), if_neg (by simp [h.enabled]), if_pos trivial]
  unfold destroyCall HookCall.exec
  simp only
  rw [hdestroy]
  unfold updateTenantResourceCount
  rw [if_neg (by simp [hready.settled.tenantInitialized])]
  exact ⟨rfl, hready, rfl⟩

end Ready

/-! ## Two processes of one tenant -/

/-- Tenant 1 with the processes 100 and 200. -/
def pairTenant : TenantSharedMemory :=
  (tenantBindProcess 200 1 (soloTenant 100 defaultQuota)).2

def pidOf : Bool → Int
  | false => 100
  | true => 200

/-- Nothing has happened yet. -/
def pairWorld : CrashWorld Bool where
  procs := fun i => settledProcess (pidOf i)
  shm := SharedMemory.zeroed
  tenant := pairTenant
  live := fun _ => ∅
  running := ∅
  exited := ∅

theorem ledger_pairTenant : ledger pairTenant 1 = ⟨.active, defaultQuota, .zero⟩ := by
  have hfresh := soloTenant_fresh (by decide : (100 : Int) ≠ 0) defaultQuota
  unfold pairTenant
  rw [ledger_bind]
  exact hfresh.ledger_eq

theorem get_pairTenant (i : Bool) : tenantGetProcessTenant (pidOf i) pairTenant = some 1 := by
  have hsolo := soloTenant_eq (by decide : (100 : Int) ≠ 0) defaultQuota
  cases i with
  | false =>
      exact (get_after_bind_ne _ 1 (by decide) (by decide)).trans
        (soloTenant_get (by decide) defaultQuota)
  | true =>
      refine (get_after_bind ⟨⟨1, tenantIdx?_one, ?_⟩, .inr ⟨⟨1, ?_⟩, ?_⟩⟩).2
      · simp [hsolo, setTenant, enrollProcess, freshTenant]
      · rw [maxProcesses_eq]
        decide
      · simp [mappedPids, hsolo, Function.update, Fin.ext_iff, SharedMemoryTenant.zeroed]

/-- Both processes are ready and bound, and the tenant counts `n` QPs. -/
structure Scene (w : CrashWorld Bool) (n : Nat) : Prop where
  ready : ∀ i, Ready (pidOf i) (w.procs i)
  get : ∀ i, tenantGetProcessTenant (pidOf i) w.tenant = some 1
  exact : QpExact (ledger w.tenant 1) n
  quota : (ledger w.tenant 1).quota = defaultQuota
  wf : TableWf w.shm

theorem pairWorld_scene : Scene pairWorld 0 := by
  refine ⟨fun i => .settledProcess _, get_pairTenant, ⟨?_, ?_, ?_⟩, ?_, .zeroed⟩
  · exact congrArg Ledger.status ledger_pairTenant
  · show (ledger pairTenant 1).quota.maxQpPerTenant.toNat ≤ 2 ^ 31 - 1
    rw [ledger_pairTenant]
    decide
  · show (ledger pairTenant 1).usage.qpCount.toInt = 0
    rw [ledger_pairTenant]
    rfl
  · exact congrArg Ledger.quota ledger_pairTenant

section Scene

variable {w : CrashWorld Bool} {n : Nat} {i : Bool} {call : HookCall}

theorem Scene.start (h : Scene w n) (i : Bool) :
    Scene (w.afterStart i (settledProcess (pidOf i))) n := by
  refine ⟨?_, h.get, h.exact, h.quota, h.wf⟩
  intro j
  show Ready (pidOf j) (Function.update w.procs i (settledProcess (pidOf i)) j)
  by_cases hj : j = i
  · rw [hj, Function.update_self]
    exact .settledProcess _
  · rw [Function.update_of_ne hj]
    exact h.ready j

theorem pidOf_ne {i j : Bool} (h : j ≠ i) : pidOf j ≠ pidOf i := by
  cases i <;> cases j <;> first | exact absurd rfl h | decide

theorem pidOf_pos (i : Bool) : 0 < pidOf i := by
  cases i <;> decide

theorem quota_call {l l' : Ledger} (hmove : CallMove l call r l') :
    l'.quota = l.quota := by
  cases hmove with
  | createQp _ _ hout => cases hout <;> rfl
  | regMr | create | destroy => split <;> rfl

theorem Scene.afterCall (h : Scene w n) (hcall : QpCall call)
    (hadm : Admissible 1 w.toHookWorld i call)
    (hready : Ready (pidOf i) (call.exec (w.view i)).2.proc)
    (hpos : (call.exec (w.view i)).1.destroyed.isSome → 1 ≤ n) :
    Scene (w.afterCall i call) ((call.exec (w.view i)).1.recount n) := by
  have hmove := hadm.move (by decide) tenantIdx?_one h.exact.active
  have hframe := (qpCall_frame (by decide) hcall hadm).1
  have hpid : (w.view i).proc.pid = pidOf i := (h.ready i).pid
  refine ⟨?_, ?_, qpExact_call h.exact hmove hcall.kind hpos, (quota_call hmove).trans h.quota,
    tableWf_frame h.wf hframe⟩
  · intro j
    show Ready (pidOf j) (Function.update w.procs i (call.exec (w.view i)).2.proc j)
    by_cases hj : j = i
    · rw [hj, Function.update_self]
      exact hready
    · rw [Function.update_of_ne hj]
      exact h.ready j
  · intro j
    show tenantGetProcessTenant (pidOf j) (call.exec (w.view i)).2.tenant = some 1
    by_cases hj : j = i
    · have hown := hframe.own (h.ready i).settled.hooksInit
      rw [hpid] at hown
      rw [hj]
      exact hown (h.get i)
    · rw [hframe.others _ (by rw [hpid]; exact pidOf_ne hj) (pidOf_pos j).ne']
      exact h.get j

theorem Scene.resolvesTo (h : Scene w n) (i : Bool) :
    ResolvesTo 1 quietEnv (hooksInitOnce quietEnv (w.view i)) := by
  rw [(h.ready i).settled.hooksInitOnce (v := w.view i)]
  refine ⟨(h.ready i).enabled, ?_⟩
  rw [(h.ready i).resolves (v := w.view i) (h.get i)]

/-- A process creates QP `k` and publishes its own count. -/
theorem Scene.create (h : Scene w n) (hroom : n < 100) (hrun : i ∈ w.running) {k : Nat}
    (hfresh : (i, k) ∉ w.live .qp) :
    CrashStep 1 w (.hook i (createCall k)) (w.afterCall i (createCall k)) ∧
      Scene (w.afterCall i (createCall k)) (n + 1) ∧
      (w.afterCall i (createCall k)).shm = (shmUpdateProcessResources (pidOf i)
        (ownUsage (countOwnQp (w.procs i))) 0 w.shm).2 ∧
      (w.afterCall i (createCall k)).live .qp = insert (i, k) (w.live .qp) := by
  have hquota : n < (ledger w.tenant 1).quota.maxQpPerTenant.toNat := by
    rw [h.quota]
    exact hroom
  obtain ⟨hreport, hready, hshm⟩ :=
    (h.ready i).create (v := w.view i) (h.get i) h.exact hquota k
  have hadm : Admissible 1 w.toHookWorld i (createCall k) := by
    refine ⟨h.resolvesTo i, ?_⟩
    intro attr qp hqp
    obtain rfl := Option.some.inj hqp
    exact hfresh
  have hcall : QpCall (createCall k) := .create _ _ _
  have hscene := h.afterCall hcall hadm hready (by rw [hreport]; nofun)
  have hlive : (w.afterCall i (createCall k)).live .qp =
      settleLive i ((createCall k).exec (w.view i)).1 (w.live .qp) :=
    Function.update_self ResourceKind.qp _ w.live
  rw [hreport] at hscene hlive
  exact ⟨.hook hrun hcall hadm, hscene, hshm, hlive⟩

/-- A process destroys QP `k` and publishes nothing. -/
theorem Scene.destroy (h : Scene w n) (hpos : 1 ≤ n) (hrun : i ∈ w.running) {k : Nat}
    (hexists : (i, k) ∈ w.live .qp) :
    CrashStep 1 w (.hook i (destroyCall k)) (w.afterCall i (destroyCall k)) ∧
      Scene (w.afterCall i (destroyCall k)) (n - 1) ∧
      (w.afterCall i (destroyCall k)).shm = w.shm ∧
      (w.afterCall i (destroyCall k)).live .qp = (w.live .qp).erase (i, k) := by
  obtain ⟨hreport, hready, hshm⟩ := (h.ready i).destroy (v := w.view i) (h.get i) k
  have hadm : Admissible 1 w.toHookWorld i (destroyCall k) := ⟨h.resolvesTo i, hexists⟩
  have hcall : QpCall (destroyCall k) := .destroy _ _ _
  have hscene := h.afterCall hcall hadm hready (fun _ => hpos)
  have hlive : (w.afterCall i (destroyCall k)).live .qp =
      settleLive i ((destroyCall k).exec (w.view i)).1 (w.live .qp) :=
    Function.update_self ResourceKind.qp _ w.live
  rw [hreport] at hscene hlive
  exact ⟨.hook hrun hcall hadm, hscene, hshm, hlive⟩

theorem publishedQp_update_self (h : TableWf s) {pid : Int} (usage : ResourceUsage)
    (start : UInt64) (hpos : 0 < pid) (hroom : (usageMap s).Room pid) :
    publishedQp (shmUpdateProcessResources pid usage start s).2 pid = usage.qpCount.toInt := by
  unfold publishedQp
  rw [shmGetProcessResources_eq _ hpos, (update_of_room h usage start hpos hroom).2,
    Verified.BoundedMap.get_put_self]
  rfl

/-- An entry that records QPs is in some slot. -/
theorem exists_slot_of_published {pid : Int} (h : publishedQp s pid ≠ 0) :
    ∃ slot, lookup s.processPids pid = some slot := by
  cases hl : lookup s.processPids pid with
  | none => exact absurd (publishedQp_absent hl) h
  | some slot => exact ⟨slot, rfl⟩

end Scene

/-- Every slot is registered for the entry it holds. -/
def registeredAll (s : SharedMemoryData) : Slot → PidfdEntry :=
  fun slot => ⟨5, s.processPids slot, s.processStartTimes slot⟩

/-- Both processes have started. -/
def bothStarted : CrashWorld Bool :=
  (pairWorld.afterStart false (settledProcess 100)).afterStart true (settledProcess 200)

theorem bothStarted_run :
    Run (FaithfulStep 1) pairWorld
      [.start false (settledProcess 100), .start true (settledProcess 200)] bothStarted := by
  have hfirst : CrashStep 1 pairWorld (.start false (settledProcess 100))
      (pairWorld.afterStart false (settledProcess 100)) := by
    refine .start (Finset.notMem_empty _) (Finset.notMem_empty _) (by decide) ?_
    rintro j (hj | hj) <;> exact absurd hj (Finset.notMem_empty j)
  have hsecond : CrashStep 1 (pairWorld.afterStart false (settledProcess 100))
      (.start true (settledProcess 200)) bothStarted := by
    refine .start (by decide) (Finset.notMem_empty _) (by decide) ?_
    rintro j (hj | hj)
    · obtain rfl := Finset.mem_singleton.mp hj
      decide
    · exact absurd hj (Finset.notMem_empty j)
  exact (Run.start.snoc ⟨trivial, hfirst⟩).snoc ⟨trivial, hsecond⟩

theorem bothStarted_scene : Scene bothStarted 0 :=
  (pairWorld_scene.start false).start true

/-- The first process has created QP 1 and published it. -/
def firstCreated : CrashWorld Bool := bothStarted.afterCall false (createCall 1)

theorem firstCreated_spec :
    FaithfulStep 1 bothStarted (.hook false (createCall 1)) firstCreated ∧
      Scene firstCreated 1 ∧ publishedQp firstCreated.shm 100 = 1 ∧
      firstCreated.live .qp = {(false, 1)} := by
  obtain ⟨hstep, hscene, hshm, hlive⟩ := bothStarted_scene.create (i := false) (k := 1)
    (by decide) (by decide) (Finset.notMem_empty _)
  have hwf : TableWf bothStarted.shm := bothStarted_scene.wf
  have hroom : (usageMap bothStarted.shm).Room 100 := by
    rw [room_usageMap_iff hwf (by decide)]
    exact .inr (by rw [lookup_first (show bothStarted.shm.processPids 0 = 0 from rfl)]; rfl)
  refine ⟨⟨.inl rfl, hstep⟩, hscene, ?_, hlive⟩
  unfold firstCreated
  rw [hshm]
  exact publishedQp_update_self hwf _ 0 (by decide) hroom

/-! ## The result -/

/-- **Exit events give back exactly what the dead processes had**, in every run
in which the entry of each process records its QPs when it dies, and no first
call finds the totals at zero while an entry of a dead process records QPs:
whenever no entry of a dead process is left, the tenant counts the QPs of the
running processes. -/
theorem exits_reclaim_exactly {ι : Type} [DecidableEq ι] {tenantId : UInt32} {t : TenantIdx}
    {w₀ w : CrashWorld ι} {events : List (CrashEvent ι)} (hstart : CrashStart tenantId t w₀)
    (hrun : Run (FaithfulStep tenantId) w₀ events w) (hreclaimed : w.exited = ∅) :
    (w.tenant.tenants t).usage.qpCount.toInt = (w.live .qp).card ∧
      ∀ x ∈ w.live .qp, x.1 ∈ w.running := by
  have hinv : CrashInv tenantId t w :=
    Run.invariant hstart.inv (fun _ _ _ h hstep => hstep.inv hstart.ne_zero hstart.idx h) hrun
  have howed : w.owed = 0 := by simp [CrashWorld.owed, hreclaimed]
  have hexact := hinv.exact.qp
  rw [howed, Nat.add_zero] at hexact
  exact ⟨hexact, fun x hx => (hinv.owner x hx).1⟩

theorem pairWorld_start : CrashStart 1 1 pairWorld :=
  ⟨by decide, tenantIdx?_one, pairWorld_scene.exact, .zeroed, rfl, rfl, rfl⟩

/-- A process that dies with its QP published leaves the tenant at zero. -/
theorem exits_reclaim_one : ∃ events w,
    Run (FaithfulStep 1) pairWorld events w ∧ w.exited = ∅ ∧ w.live .qp = ∅ ∧
      (w.tenant.tenants 1).usage.qpCount.toInt = 0 := by
  obtain ⟨hcreate, hscene, hpub, hlive⟩ := firstCreated_spec
  have hpid : firstCreated.pid false = 100 := (hscene.ready false).pid
  obtain ⟨slot, hslot⟩ := exists_slot_of_published (by rw [hpub]; decide)
  have hexited : (firstCreated.afterDeath false).exited = {false} := by
    simp only [CrashWorld.afterDeath, hpid, hslot]
    rfl
  have hdie : FaithfulStep 1 firstCreated (.die false) (firstCreated.afterDeath false) := by
    refine ⟨?_, .die ?_⟩
    · show publishedQp firstCreated.shm (firstCreated.pid false) = _
      rw [hpid, hpub, CrashWorld.qpsOf, hlive]
      rfl
    · decide
  have hreclaim : FaithfulStep 1 (firstCreated.afterDeath false)
      (.reclaim false slot (registeredAll firstCreated.shm))
      ((firstCreated.afterDeath false).afterExit false slot
        (registeredAll firstCreated.shm)) := by
    refine ⟨trivial, .reclaim ?_ ?_ ⟨rfl, rfl⟩⟩
    · rw [hexited]
      exact Finset.mem_singleton_self false
    · exact (lookup_some hslot).trans hpid.symm
  have hrun := ((bothStarted_run.snoc hcreate).snoc hdie).snoc hreclaim
  have hdone : ((firstCreated.afterDeath false).afterExit false slot
      (registeredAll firstCreated.shm)).exited = ∅ := by
    show (firstCreated.afterDeath false).exited.erase false = ∅
    rw [hexited]
    rfl
  have hnone : ((firstCreated.afterDeath false).afterExit false slot
      (registeredAll firstCreated.shm)).live .qp = ∅ := by
    show (firstCreated.afterDeath false).live .qp = ∅
    rw [live_afterDeath, hlive]
    rfl
  have hexact := (exits_reclaim_exactly pairWorld_start hrun hdone).1
  rw [hnone] at hexact
  exact ⟨_, _, hrun, hdone, hnone, hexact⟩

/-- The first process creates and destroys a QP, the second creates one, and
the first dies: its entry still records a QP, and the exit event takes that
of the second process out of the tenant's count. -/
theorem stale_entry_reclaims_survivor : ∃ events w,
    CrashStart 1 1 pairWorld ∧ Run (CrashStep 1) pairWorld events w ∧ w.exited = ∅ ∧
      w.live .qp = {(true, 2)} ∧ (w.tenant.tenants 1).usage.qpCount.toInt = 0 := by
  obtain ⟨hcreate, hscene, hpub, hlive⟩ := firstCreated_spec
  obtain ⟨hdestroy, hscene₂, hshm₂, hlive₂⟩ := hscene.destroy (i := false) (k := 1) (by decide)
    (by decide) (by rw [hlive]; decide)
  generalize hw₂ : firstCreated.afterCall false (destroyCall 1) = w₂
    at hdestroy hscene₂ hshm₂ hlive₂
  have hrun₂ : w₂.running = {true, false} ∧ w₂.exited = ∅ := by
    rw [← hw₂]
    exact ⟨rfl, rfl⟩
  have hempty : w₂.live .qp = ∅ := by
    rw [hlive₂, hlive]
    rfl
  obtain ⟨hsurvivor, hscene₃, hshm₃, hlive₃⟩ := hscene₂.create (i := true) (k := 2) (by decide)
    (by rw [hrun₂.1]; decide) (by rw [hempty]; decide)
  generalize hw₃ : w₂.afterCall true (createCall 2) = w₃ at hsurvivor hscene₃ hshm₃ hlive₃
  have hrun₃ : w₃.running = {true, false} ∧ w₃.exited = ∅ := by
    rw [← hw₃]
    exact hrun₂
  have hpub₃ : publishedQp w₃.shm 100 = 1 := by
    rw [hshm₃, publishedQp_update_ne hscene₂.wf _ _ (by decide) (by decide), hshm₂, hpub]
  have hpid : w₃.pid false = 100 := (hscene₃.ready false).pid
  obtain ⟨slot, hslot⟩ := exists_slot_of_published (by rw [hpub₃]; decide)
  have hocc : w₃.shm.processPids slot = 100 := lookup_some hslot
  have hexited : (w₃.afterDeath false).exited = {false} := by
    simp only [CrashWorld.afterDeath, hpid, hslot, hrun₃.2]
    rfl
  have hdie : CrashStep 1 w₃ (.die false) (w₃.afterDeath false) :=
    .die (by rw [hrun₃.1]; decide)
  have hreclaim : CrashStep 1 (w₃.afterDeath false)
      (.reclaim false slot (registeredAll w₃.shm))
      ((w₃.afterDeath false).afterExit false slot (registeredAll w₃.shm)) := by
    refine .reclaim ?_ ?_ ⟨rfl, rfl⟩
    · rw [hexited]
      exact Finset.mem_singleton_self false
    · exact hocc.trans hpid.symm
  have hdead : (w₃.shm.processStats slot).qpCount.toInt = (1 : Nat) := by
    rw [← publishedQp_of_lookup (by decide) hslot, hpub₃]
    rfl
  have hne : w₃.shm.processPids slot ≠ 0 := by
    rw [hocc]
    decide
  have hreg : SlotUnchanged slot ((w₃.afterDeath false).gc (registeredAll w₃.shm)) := ⟨rfl, rfl⟩
  have htenant := (afterExit_segments (w₃.afterDeath false) false hne hreg).2
  have hexact := (gcAdjustTenant_exact (by decide) tenantIdx?_one hscene₃.exact
    (by decide : (0 : Int) < 100) hdead (Nat.le_refl 1) (fun _ => hscene₃.get false)).1
  have hrun := bothStarted_run.snoc hcreate
  have hrun := (((hrun.mono fun _ _ _ h => h.2).snoc hdestroy).snoc hsurvivor).snoc hdie
  refine ⟨_, _, pairWorld_start, hrun.snoc hreclaim, ?_, ?_, ?_⟩
  · show (w₃.afterDeath false).exited.erase false = ∅
    rw [hexited]
    rfl
  · show (w₃.afterDeath false).live .qp = {(true, 2)}
    rw [live_afterDeath, hlive₃, hempty]
    rfl
  · rw [htenant, show (w₃.afterDeath false).shm.processPids slot = 100 from hocc]
    exact hexact.qp

end MtRdma.Ports.CrashReclaim
