import MtRdma.Ports.CrashReclaim
import MtRdma.Ports.TableWrites

/-!
# The MRs of a dead process

The exit event of a process gives its tenant back the MRs that the entry of
the process records, but only if the entry records QPs as well, and of the
hooks only the creation of a QP publishes an entry.  An MR registered after the
last QP was created, or without one, stays in the tenant's count.  A scan that
comes before the exit event removes the entry and gives nothing back.

While the exit events come in, the tenant's count is the number of MRs of the
surviving processes and what the entries of the dead ones still owe.
-/

namespace MtRdma.Ports.MrReclaim

open Verified
open Verified.MachineInt
open Verified.SlotScan
open Verified.Runs
open SharedMemory
open SharedMemoryTenant
open RdmaHooks
open CollectorGc
open GcPaths
open CrashReclaim

/-! ## What an entry gives back -/

/-- The MRs that the exit event takes out of the tenant's count. -/
def returnedMr (usage : ResourceUsage) : Int :=
  if 0 < usage.qpCount then usage.mrCount.toInt else 0

/-- The same for the entry of a pid. -/
def owedMr (s : SharedMemoryData) (pid : Int) : Int := returnedMr (storedUsage s pid)

section Table

variable {s : SharedMemoryData} {slot : Slot}

theorem owedMr_slot (h : TableWf s) (hocc : s.processPids slot ≠ 0) :
    owedMr s (s.processPids slot) = returnedMr (s.processStats slot) := by
  unfold owedMr storedUsage usageMap
  rw [BoundedMap.get_ofSlots hocc, h.distinct.lookup_eq hocc]
  rfl

/-- An emptied slot owes nothing any more. -/
theorem owedMr_clearSlot (h : TableWf s) (hocc : s.processPids slot ≠ 0) (pid : Int) :
    owedMr (clearSlot slot s) pid = if pid = s.processPids slot then 0 else owedMr s pid := by
  unfold owedMr storedUsage
  rw [usageMap_clearSlot h hocc]
  by_cases hpid : pid = s.processPids slot
  · rw [if_pos hpid, hpid, BoundedMap.get_erase_self]
    rfl
  · rw [if_neg hpid, BoundedMap.get_erase_ne _ hpid]

/-- An entry that owes something is in some slot. -/
theorem exists_slot_of_owed {pid : Int} (hpid : pid ≠ 0) (h : owedMr s pid ≠ 0) :
    ∃ slot, s.processPids slot = pid := by
  cases hl : lookup s.processPids pid with
  | some slot => exact ⟨slot, lookup_some hl⟩
  | none =>
      unfold owedMr storedUsage usageMap at h
      rw [BoundedMap.get_ofSlots hpid, hl] at h
      exact absurd rfl h

end Table

/-! ## The tenant's side of an exit event -/

section Tenant

variable {tenantId : UInt32} {t : TenantIdx} {s : TenantSharedMemory} {l : Ledger} {n : Int}
  {pid : Int} {dead : ResourceUsage}

theorem charged_unique {t' : TenantIdx} (h : ChargedTenant pid s t)
    (h' : ChargedTenant pid s t') : t = t' := by
  obtain ⟨_, _, tenantId, hmap, _, ht⟩ := h
  obtain ⟨_, _, tenantId', hmap', _, ht'⟩ := h'
  obtain rfl := Option.some.inj (hmap.symm.trans hmap')
  exact Option.some.inj (ht.symm.trans ht')

/-- The exit event writes at most the record of the tenant it charges. -/
theorem gcAdjustTenant_ledger (pid : Int) (dead : ResourceUsage) (s : TenantSharedMemory)
    (t : TenantIdx) :
    (ChargedTenant pid s t ∧ 0 < dead.qpCount ∧ ledger (gcAdjustTenant pid dead s) t =
        withUsage (ledger s t) (reclaimedUsage (ledger s t).usage dead)) ∨
      (¬(ChargedTenant pid s t ∧ 0 < dead.qpCount) ∧
        ledger (gcAdjustTenant pid dead s) t = ledger s t) := by
  by_cases hqp : 0 < dead.qpCount
  · by_cases hsome : ∃ t', ChargedTenant pid s t'
    · obtain ⟨t', hcharged⟩ := hsome
      rw [gcAdjustTenant_charged hcharged hqp, ledger_setTenant]
      by_cases ht : t = t'
      · subst ht
        rw [Function.update_self]
        exact .inl ⟨hcharged, hqp, rfl⟩
      · rw [Function.update_of_ne ht]
        exact .inr ⟨fun hother => ht (charged_unique hother.1 hcharged), rfl⟩
    · rw [gcAdjustTenant_uncharged dead fun t' h => hsome ⟨t', h⟩]
      exact .inr ⟨fun h => hsome ⟨t, h.1⟩, rfl⟩
  · rw [gcAdjustTenant_noQp s hqp]
    exact .inr ⟨fun h => hqp h.2, rfl⟩

theorem gcAdjustTenant_mappings (pid : Int) (dead : ResourceUsage) (s : TenantSharedMemory) :
    (gcAdjustTenant pid dead s).pidMappings = s.pidMappings := by
  rcases gcAdjustTenant_cases pid dead s with hsame | ⟨tenantId, usage, hwrite⟩
  · rw [hsame]
  · rw [hwrite]
    exact tenantUpdateResourceUsage_frame _ _ _

/-- An ACTIVE tenant that counts `n` MRs. -/
structure MrCounted (l : Ledger) (n : Int) : Prop where
  active : l.status = .active
  mr : l.usage.mrCount.toInt = n

theorem MrCounted.reclaimed (h : MrCounted l n) (hnonneg : 0 ≤ dead.mrCount.toInt)
    (hle : dead.mrCount.toInt ≤ n) :
    MrCounted (withUsage l (reclaimedUsage l.usage dead)) (n - dead.mrCount.toInt) := by
  refine ⟨h.active, ?_⟩
  show (if dead.mrCount < l.usage.mrCount then l.usage.mrCount - dead.mrCount else 0).toInt = _
  have hmr := h.mr
  rw [toInt_clamped_sub hnonneg (by omega), hmr]

/-- An entry whose MRs are counted by the tenant takes them out of the count. -/
theorem MrCounted.adjust (h : MrCounted (ledger s t) n) (hne : tenantId ≠ 0)
    (ht : tenantIdx? tenantId = some t) (hpid : 0 < pid) (hnonneg : 0 ≤ returnedMr dead)
    (hle : returnedMr dead ≤ n)
    (hbound : returnedMr dead ≠ 0 → tenantGetProcessTenant pid s = some tenantId) :
    MrCounted (ledger (gcAdjustTenant pid dead s) t) (n - returnedMr dead) := by
  rcases gcAdjustTenant_ledger pid dead s t with ⟨_, hqp, hledger⟩ | ⟨hnot, hledger⟩
  · have hret : returnedMr dead = dead.mrCount.toInt := if_pos hqp
    rw [hledger, hret]
    rw [hret] at hnonneg hle
    exact h.reclaimed hnonneg hle
  · -- an entry that owes something would have charged this tenant
    have hzero : returnedMr dead = 0 := by
      by_contra howed
      have hqp : 0 < dead.qpCount := by
        by_contra hqp
        exact howed (if_neg hqp)
      exact hnot ⟨⟨hpid, h.active, tenantId, hbound howed, UInt32.pos_iff_ne_zero.mpr hne, ht⟩, hqp⟩
    rw [hledger, hzero, Int.sub_zero]
    exact h

end Tenant

/-! ## The run of the hooks -/

section Hooks

variable {ι : Type} {tenantId : UInt32} {t : TenantIdx} {w : HookWorld ι} {i : ι} {call : HookCall}

/-- The QP and MR hooks. -/
inductive MrCall : HookCall → Prop
  | createQp (env : HookEnv) (real : QpInitAttr → Option Nat) (attr : QpInitAttr) :
      MrCall (.createQp env real attr)
  | destroyQp (env : HookEnv) (qp : Nat) (real : Int) : MrCall (.destroyQp env qp real)
  | regMr (env : HookEnv) (length : UInt64) (real : Option Nat) : MrCall (.regMr env length real)
  | deregMr (env : HookEnv) (mr : Nat) (length : UInt64) (real : Int) :
      MrCall (.deregMr env mr length real)

/-- The processes are different, the tenant counts what they have created, and
a process with MRs is one of the tenant's. -/
structure MrInv (tenantId : UInt32) (t : TenantIdx) (w : HookWorld ι) : Prop where
  exact : Exact (ledger w.tenant t) w.counts
  wf : TableWf w.shm
  pid_pos : ∀ i, 0 < (w.procs i).pid
  pid_inj : ∀ i j, (w.procs i).pid = (w.procs j).pid → i = j
  owner : ∀ x ∈ w.live .mr, (w.procs x.1).hooksInit = true ∧
    tenantGetProcessTenant (w.procs x.1).pid w.tenant = some tenantId

/-- The tenant counts the objects that exist, none of them an MR. -/
structure MrStart (tenantId : UInt32) (t : TenantIdx) (w : HookWorld ι) : Prop where
  ne_zero : tenantId ≠ 0
  idx : tenantIdx? tenantId = some t
  exact : Exact (ledger w.tenant t) w.counts
  wf : TableWf w.shm
  pid_pos : ∀ i, 0 < (w.procs i).pid
  pid_inj : ∀ i j, (w.procs i).pid = (w.procs j).pid → i = j
  live : w.live .mr = ∅

theorem MrStart.inv (h : MrStart tenantId t w) : MrInv tenantId t w where
  exact := h.exact
  wf := h.wf
  pid_pos := h.pid_pos
  pid_inj := h.pid_inj
  owner := by
    intro x hx
    rw [h.live] at hx
    exact absurd hx (Finset.notMem_empty x)

theorem MrCall.frame (hcall : MrCall call) (hne : tenantId ≠ 0)
    (hadm : Admissible tenantId w i call) : FramedCall tenantId w i call := by
  cases hcall with
  | createQp env real attr => exact qpCall_frame hne (.create env real attr) hadm
  | destroyQp env qp real => exact qpCall_frame hne (.destroy env qp real) hadm
  | regMr env length real =>
      obtain ⟨hmove, hget⟩ := ibvRegMr_move length real hne hadm.1.1 hadm.1.2
      rw [(hooksInitOnce_view env (w.view i)).1] at hget
      exact ⟨hmove.callFrame, hget⟩
  | deregMr env mr length real =>
      exact ⟨(ibvDeregMr_move length real hne hadm.1.2).callFrame, nofun⟩

variable [DecidableEq ι]

/-- One of the hooks runs to its end. -/
def MrStep (tenantId : UInt32) (w : HookWorld ι) (label : ι × HookCall) (w' : HookWorld ι) :
    Prop :=
  MrCall label.2 ∧ Admissible tenantId w label.1 label.2 ∧ w' = w.afterCall label.1 label.2

theorem MrInv.step {label : ι × HookCall} {w' : HookWorld ι} (hne : tenantId ≠ 0)
    (ht : tenantIdx? tenantId = some t) (h : MrInv tenantId t w)
    (hstep : MrStep tenantId w label w') : MrInv tenantId t w' := by
  obtain ⟨i, call⟩ := label
  obtain ⟨hcall, hadm, rfl⟩ := hstep
  obtain ⟨hframe, hcreated⟩ := MrCall.frame hcall hne hadm
  have hpid := pid_afterCall hframe
  constructor
  case exact => exact AccountStep.exact hne ht h.exact (.hook hadm)
  case wf => exact tableWf_frame h.wf hframe
  case pid_pos =>
    intro j
    rw [hpid]
    exact h.pid_pos j
  case pid_inj =>
    intro j k heq
    rw [hpid, hpid] at heq
    exact h.pid_inj j k heq
  case owner =>
    intro x hx
    rw [hpid]
    refine owner_afterCall ⟨hframe, hcreated⟩ hx (h.owner x) ?_
    intro hxi
    exact ⟨fun heq => hxi (h.pid_inj _ _ heq), (h.pid_pos x.1).ne'⟩

theorem mrRun_inv {w₀ : HookWorld ι} {labels : List (ι × HookCall)} (hstart : MrStart tenantId t w₀)
    (hrun : Run (MrStep tenantId) w₀ labels w) : MrInv tenantId t w :=
  hrun.invariant hstart.inv fun _ _ _ h hstep => h.step hstart.ne_zero hstart.idx hstep

/-! ## Deaths -/

/-- The MRs of process `i`. -/
def mrsOf (w : HookWorld ι) (i : ι) : Finset (ι × Nat) := (w.live .mr).filter fun x => x.1 = i

/-- The MRs of the processes that do not die. -/
def survivingMrs (w : HookWorld ι) (dead : Finset ι) : Finset (ι × Nat) :=
  (w.live .mr).filter fun x => x.1 ∉ dead

/-- The entry of a process that dies records its MRs, next to a QP. -/
def EntryCovers (w : HookWorld ι) (i : ι) : Prop :=
  owedMr w.shm (w.procs i).pid = (mrsOf w i).card

theorem card_live_mr (w : HookWorld ι) (dead : Finset ι) :
    (w.live .mr).card = (survivingMrs w dead).card + ∑ i ∈ dead, (mrsOf w i).card := by
  have hsplit := Finset.card_filter_add_card_filter_not (s := w.live .mr) fun x => x.1 ∈ dead
  have hfibers : ((w.live .mr).filter fun x => x.1 ∈ dead).card = ∑ i ∈ dead, (mrsOf w i).card := by
    have hmaps : Set.MapsTo Prod.fst
        (((w.live .mr).filter fun x => x.1 ∈ dead : Finset (ι × Nat)) : Set (ι × Nat)) dead := by
      intro x hx
      exact (Finset.mem_filter.mp hx).2
    rw [Finset.card_eq_sum_card_fiberwise hmaps]
    refine Finset.sum_congr rfl ?_
    intro i hi
    rw [Finset.filter_filter]
    refine congrArg Finset.card (Finset.filter_congr ?_)
    intro x _
    exact ⟨fun h => h.2, fun h => ⟨h ▸ hi, h⟩⟩
  unfold survivingMrs
  omega

/-! ## Exit events -/

/-- The exit event of a slot whose pidfd is registered for a dead process. -/
inductive ExitStep (w : HookWorld ι) (dead : Finset ι) : GcState → Slot → GcState → Prop
  | exit {g : GcState} {slot : Slot} {i : ι} : i ∈ dead → 0 ≤ (g.pidfds slot).pidfd →
      (g.pidfds slot).pid = (w.procs i).pid →
      ExitStep w dead g slot (gcHandleProcessExit slot g)

/-- The tenant counts `n` MRs and what the dead processes owe. -/
structure Owing (tenantId : UInt32) (t : TenantIdx) (w : HookWorld ι) (dead : Finset ι) (n : Nat)
    (g : GcState) : Prop where
  counted : MrCounted (ledger g.tenant t) (n + ∑ i ∈ dead, owedMr g.shm (w.procs i).pid)
  wf : TableWf g.shm
  nonneg : ∀ i ∈ dead, 0 ≤ owedMr g.shm (w.procs i).pid
  bound : ∀ i ∈ dead, owedMr g.shm (w.procs i).pid ≠ 0 →
    tenantGetProcessTenant (w.procs i).pid g.tenant = some tenantId

variable {dead : Finset ι} {n : Nat} {g g' : GcState}

/-- At the deaths the MRs of the dead are what their entries owe. -/
theorem MrInv.owing (h : MrInv tenantId t w) (hcovers : ∀ i ∈ dead, EntryCovers w i)
    (hshm : g.shm = w.shm) (htenant : g.tenant = w.tenant) :
    Owing tenantId t w dead (survivingMrs w dead).card g := by
  constructor
  case counted =>
    rw [htenant, hshm]
    refine ⟨h.exact.active, ?_⟩
    have hsum : ∑ i ∈ dead, owedMr w.shm (w.procs i).pid =
        ((∑ i ∈ dead, (mrsOf w i).card : Nat) : Int) := by
      rw [Nat.cast_sum]
      exact Finset.sum_congr rfl hcovers
    have hcard : (w.counts .mr : Int) = _ := congrArg Nat.cast (card_live_mr w dead)
    rw [h.exact.mr, hcard, hsum]
    exact Nat.cast_add _ _
  case wf =>
    rw [hshm]
    exact h.wf
  case nonneg =>
    intro i hi
    rw [hshm, hcovers i hi]
    exact Int.natCast_nonneg _
  case bound =>
    intro i hi howed
    rw [hshm, hcovers i hi] at howed
    -- a process with MRs is bound
    have hpos : 0 < (mrsOf w i).card := by omega
    obtain ⟨x, hx⟩ := Finset.card_pos.mp hpos
    obtain ⟨hlive, hxi⟩ := Finset.mem_filter.mp hx
    have hbound := (h.owner x hlive).2
    rw [hxi] at hbound
    rw [htenant]
    exact hbound

/-- What the others owe is not touched when a slot is emptied. -/
theorem sum_owedMr_clearSlot {s : SharedMemoryData} {slot : Slot} (h : TableWf s)
    (hocc : s.processPids slot ≠ 0) (hslot : s.processPids slot = (w.procs i).pid)
    (hinj : ∀ j, (w.procs j).pid = (w.procs i).pid → j = i) (hi : i ∈ dead) :
    owedMr s (w.procs i).pid + ∑ j ∈ dead, owedMr (clearSlot slot s) (w.procs j).pid =
      ∑ j ∈ dead, owedMr s (w.procs j).pid := by
  have hself : owedMr (clearSlot slot s) (w.procs i).pid = 0 := by
    rw [owedMr_clearSlot h hocc, if_pos hslot.symm]
  have hothers : ∀ j ∈ dead.erase i,
      owedMr (clearSlot slot s) (w.procs j).pid = owedMr s (w.procs j).pid := by
    intro j hj
    rw [owedMr_clearSlot h hocc, hslot, if_neg]
    exact fun heq => Finset.ne_of_mem_erase hj (hinj j heq)
  rw [← Finset.add_sum_erase dead (fun j => owedMr s (w.procs j).pid) hi,
    ← Finset.add_sum_erase dead (fun j => owedMr (clearSlot slot s) (w.procs j).pid) hi, hself,
    Int.zero_add, Finset.sum_congr rfl hothers]

/-- An exit event settles what its process owes. -/
theorem Owing.exit {slot : Slot} (hne : tenantId ≠ 0) (ht : tenantIdx? tenantId = some t)
    (hpids : ∀ i, 0 < (w.procs i).pid) (hinj : ∀ i j, (w.procs i).pid = (w.procs j).pid → i = j)
    (h : Owing tenantId t w dead n g) (hstep : ExitStep w dead g slot g') :
    Owing tenantId t w dead n g' := by
  cases hstep with | @exit i hi _ hpid
  rcases gcHandleProcessExit_cases slot g with ⟨_, hshm, htenant⟩ | ⟨hsame, hocc, hshm, htenant⟩
  · -- the slot holds another entry by now
    exact ⟨by rw [hshm, htenant]; exact h.counted, by rw [hshm]; exact h.wf,
      by rw [hshm]; exact h.nonneg, by rw [hshm, htenant]; exact h.bound⟩
  · have hslot : g.shm.processPids slot = (w.procs i).pid := hsame.1.trans hpid
    have howed := owedMr_slot h.wf hocc
    rw [hslot] at howed
    have hcases : ∀ j, owedMr (clearSlot slot g.shm) (w.procs j).pid = 0 ∨
        owedMr (clearSlot slot g.shm) (w.procs j).pid = owedMr g.shm (w.procs j).pid := by
      intro j
      rw [owedMr_clearSlot h.wf hocc]
      split
      · exact .inl rfl
      · exact .inr rfl
    have hnonneg : ∀ j ∈ dead, 0 ≤ owedMr (clearSlot slot g.shm) (w.procs j).pid := by
      intro j hj
      rcases hcases j with hzero | hkept
      · rw [hzero]
      · rw [hkept]
        exact h.nonneg j hj
    constructor
    case counted =>
      have hsum := sum_owedMr_clearSlot h.wf hocc hslot (fun j heq => hinj j i heq) hi
      have hrest := Finset.sum_nonneg hnonneg
      have hle : owedMr g.shm (w.procs i).pid ≤
          n + ∑ j ∈ dead, owedMr g.shm (w.procs j).pid := by omega
      have hpos := h.nonneg i hi
      have hbound := h.bound i hi
      rw [howed] at hle hpos hbound
      have hadjust := h.counted.adjust hne ht (hpids i) hpos hle hbound
      rw [hshm, htenant, hslot]
      refine ⟨hadjust.active, ?_⟩
      rw [hadjust.mr, ← howed]
      omega
    case wf =>
      rw [hshm]
      exact h.wf.clearSlot slot
    case nonneg =>
      rw [hshm]
      exact hnonneg
    case bound =>
      intro j hj hjowed
      rw [hshm] at hjowed
      rw [htenant, tenantGetProcessTenant_of_mappings (gcAdjustTenant_mappings _ _ _)]
      rcases hcases j with hzero | hkept
      · exact absurd hzero hjowed
      · rw [hkept] at hjowed
        exact h.bound j hj hjowed

end Hooks

/-! ## One process with one MR -/

/-- The process registers MR 5. -/
def registerCall : HookCall := .regMr quietEnv 4096 (some 5)

/-- Process 100 of tenant 1 has registered MR 5. -/
def registeredWorld : HookWorld Unit := (soloWorld defaultQuota).afterCall () registerCall

theorem soloWorld_start : MrStart 1 1 (soloWorld defaultQuota) where
  ne_zero := by decide
  idx := tenantIdx?_one
  exact := (accountRun_exact (soloTenant_fresh (by decide) defaultQuota) smallQuota_default
    (fun _ => rfl) .start).1
  wf := .zeroed
  pid_pos := fun _ => show (0 : Int) < 100 by decide
  pid_inj := fun _ _ _ => rfl
  live := rfl

theorem registerCall_exec : registerCall.exec ((soloWorld defaultQuota).view ()) =
    (⟨some 5, none, true⟩, ⟨countOwnMr 4096 (settledProcess 100), SharedMemory.zeroed,
      rewriteUsage 1 (countDelta .mr 1) (soloTenant 100 defaultQuota)⟩) := by
  obtain ⟨hact, hquota, husage⟩ := soloTenant_record (by decide : (100 : Int) ≠ 0) defaultQuota
  have hcheck : checkTenantMrLimitInline 1 4096 ((soloWorld defaultQuota).view ()) = true := by
    have hinfo : tenantGetInfo 1 ((soloWorld defaultQuota).view ()).tenant =
        some ((soloTenant 100 defaultQuota).tenants 1) := by
      show tenantGetInfo 1 (soloTenant 100 defaultQuota) = _
      simp [tenantGetInfo, tenantIdx?_one, hact]
    unfold checkTenantMrLimitInline
    rw [hinfo]
    simp only [hquota, husage]
    rfl
  have hreg := (settledProcess_settled 100).ibvRegMr (v := (soloWorld defaultQuota).view ())
    rfl (soloTenant_get (by decide) defaultQuota) (by decide) rfl rfl hcheck 5
  unfold registerCall HookCall.exec
  simp only
  rw [hreg]
  rfl

theorem registeredWorld_run :
    Run (MrStep 1) (soloWorld defaultQuota) [((), registerCall)] registeredWorld := by
  have hadm : Admissible 1 (soloWorld defaultQuota) () registerCall := by
    refine ⟨⟨rfl, ?_⟩, fun mr _ => Finset.notMem_empty _⟩
    have hsettled : Settled quietEnv ((soloWorld defaultQuota).view ()).proc :=
      settledProcess_settled 100
    rw [hsettled.hooksInitOnce, hsettled.resolved (soloTenant_get (by decide) defaultQuota)]
  exact Run.start.snoc ⟨.regMr _ _ _, hadm, rfl⟩

theorem registeredWorld_eq : registeredWorld.procs () = countOwnMr 4096 (settledProcess 100) ∧
    registeredWorld.shm = SharedMemory.zeroed ∧
    registeredWorld.tenant = rewriteUsage 1 (countDelta .mr 1) (soloTenant 100 defaultQuota) ∧
    registeredWorld.live .mr = {((), 5)} ∧ registeredWorld.live .qp = ∅ := by
  unfold registeredWorld HookWorld.afterCall
  rw [registerCall_exec]
  exact ⟨rfl, rfl, rfl, rfl, rfl⟩

theorem ledger_registeredWorld : ledger registeredWorld.tenant 1 =
    withUsage ⟨.active, defaultQuota, .zero⟩ (countDelta .mr 1 .zero) := by
  have hledger := (soloTenant_fresh (by decide : (100 : Int) ≠ 0) defaultQuota).ledger_eq
  obtain ⟨hact, -⟩ := soloTenant_record (by decide : (100 : Int) ≠ 0) defaultQuota
  rw [registeredWorld_eq.2.2.1, ledger_rewriteUsage tenantIdx?_one hact (countDelta .mr 1), hledger]

theorem registeredWorld_ready : Ready 100 (registeredWorld.view ()).proc ∧
    tenantGetProcessTenant 100 (registeredWorld.view ()).tenant = some 1 := by
  obtain ⟨hproc, _, htenant, _⟩ := registeredWorld_eq
  constructor
  · show Ready 100 (registeredWorld.procs ())
    rw [hproc]
    exact ⟨⟨rfl, rfl, rfl, rfl⟩, rfl, rfl, rfl, rfl, rfl, rfl⟩
  · show tenantGetProcessTenant 100 registeredWorld.tenant = some 1
    rw [htenant, tenantGetProcessTenant_of_mappings (rewriteUsage_frame _ _ _)]
    exact soloTenant_get (by decide) defaultQuota

/-- It has then created QP 1, and published both. -/
def publishedWorld : HookWorld Unit := registeredWorld.afterCall () (createCall 1)

theorem publishedWorld_run : Run (MrStep 1) (soloWorld defaultQuota)
    [((), registerCall), ((), createCall 1)] publishedWorld := by
  obtain ⟨hready, hget⟩ := registeredWorld_ready
  have hadm : Admissible 1 registeredWorld () (createCall 1) := by
    refine ⟨⟨?_, ?_⟩, fun _ qp _ => ?_⟩
    · rw [hready.settled.hooksInitOnce]
      exact hready.enabled
    · rw [hready.settled.hooksInitOnce, hready.resolves hget]
    · rw [registeredWorld_eq.2.2.2.2]
      exact Finset.notMem_empty _
  have hstep : MrStep 1 registeredWorld ((), createCall 1) publishedWorld :=
    ⟨.createQp _ _ _, hadm, rfl⟩
  exact registeredWorld_run.snoc hstep

theorem publishedWorld_eq : (publishedWorld.procs ()).pid = 100 ∧
    publishedWorld.shm = (shmUpdateProcessResources 100 ⟨1, 1, 4096⟩ 0 SharedMemory.zeroed).2 ∧
    publishedWorld.live .mr = {((), 5)} := by
  obtain ⟨hproc, hshm, _, hmr, hqp⟩ := registeredWorld_eq
  obtain ⟨hready, hget⟩ := registeredWorld_ready
  have hexact : QpExact (ledger (registeredWorld.view ()).tenant 1) 0 := by
    have hcount : registeredWorld.counts .qp = 0 := by
      unfold HookWorld.counts
      rw [hqp]
      rfl
    rw [← hcount]
    exact (mrRun_inv soloWorld_start registeredWorld_run).exact.toQp
  have hroom : 0 < (ledger (registeredWorld.view ()).tenant 1).quota.maxQpPerTenant.toNat := by
    show 0 < (ledger registeredWorld.tenant 1).quota.maxQpPerTenant.toNat
    rw [ledger_registeredWorld]
    decide
  obtain ⟨_, hready', hwritten⟩ := hready.create hget hexact hroom 1
  refine ⟨?_, ?_, hmr⟩
  · show (Function.update registeredWorld.procs () _ ()).pid = 100
    rw [Function.update_self]
    exact hready'.pid
  · have husage : ownUsage (countOwnQp (registeredWorld.view ()).proc) = ⟨1, 1, 4096⟩ := by
      show ownUsage (countOwnQp (registeredWorld.procs ())) = _
      rw [hproc]
      rfl
    rw [husage, show (registeredWorld.view ()).shm = SharedMemory.zeroed from hshm] at hwritten
    exact hwritten

theorem publishedWorld_owed : owedMr publishedWorld.shm 100 = 1 := by
  have hroom : (usageMap SharedMemory.zeroed).Room 100 := by
    rw [room_usageMap_iff .zeroed (by decide)]
    exact .inr (by rw [lookup_first (show SharedMemory.zeroed.processPids 0 = 0 from rfl)]; rfl)
  unfold owedMr storedUsage
  rw [publishedWorld_eq.2.1, (update_of_room .zeroed _ 0 (by decide) hroom).2,
    BoundedMap.get_put_self]
  decide

/-- Its pidfd is registered when it dies. -/
def watchedDead : GcState :=
  ⟨publishedWorld.shm, publishedWorld.tenant, registeredAll publishedWorld.shm, []⟩

/-! ## The result -/

/-- **The tenant counts the MRs of the survivors.**  Some processes die after
any run of the QP and MR hooks.  If the entry of each records its MRs next to a
QP, and if no entry that owes MRs is left when the scan comes, then the
tenant's count is the number of MRs of the other processes. -/
theorem mr_count_matches_survivors {ι : Type} [DecidableEq ι] {tenantId : UInt32} {t : TenantIdx}
    {w₀ w : HookWorld ι} {labels : List (ι × HookCall)} {dead : Finset ι} {g₀ g₁ : GcState}
    {slots : List Slot} (hstart : MrStart tenantId t w₀)
    (hrun : Run (MrStep tenantId) w₀ labels w) (hcovers : ∀ i ∈ dead, EntryCovers w i)
    (hshm : g₀.shm = w.shm) (htenant : g₀.tenant = w.tenant)
    (hexits : Run (ExitStep w dead) g₀ slots g₁)
    (hsettled : ∀ i ∈ dead, owedMr g₁.shm (w.procs i).pid = 0) (probes : Slot → SlotProbe) :
    ((gcScanAndRegister probes g₁).tenant.tenants t).usage.mrCount.toInt =
      (survivingMrs w dead).card := by
  have hinv := mrRun_inv hstart hrun
  have howing : Owing tenantId t w dead (survivingMrs w dead).card g₁ :=
    hexits.invariant (hinv.owing hcovers hshm htenant) fun _ _ _ h hstep =>
      h.exit hstart.ne_zero hstart.idx hinv.pid_pos hinv.pid_inj hstep
  rw [gcScanAndRegister_tenant]
  have hmr : (g₁.tenant.tenants t).usage.mrCount.toInt = _ := howing.counted.mr
  rw [hmr, Finset.sum_congr rfl hsettled, Finset.sum_const_zero, Int.add_zero]

/-- The process of MR 5 and QP 1 dies, its exit event comes before the scan,
and the tenant is left with no MR. -/
theorem mr_count_matches_survivors_published :
    ∃ (w : HookWorld Unit) (g₀ g₁ : GcState) (slot : Slot),
      Run (MrStep 1) (soloWorld defaultQuota) [((), registerCall), ((), createCall 1)] w ∧
      (mrsOf w ()).card = 1 ∧ g₀.shm = w.shm ∧ g₀.tenant = w.tenant ∧
      Run (ExitStep w {()}) g₀ [slot] g₁ ∧
      ∀ probes, ((gcScanAndRegister probes g₁).tenant.tenants 1).usage.mrCount.toInt =
        (survivingMrs w {()}).card := by
  obtain ⟨hpid, _, hlive⟩ := publishedWorld_eq
  have hwf := (mrRun_inv soloWorld_start publishedWorld_run).wf
  have hcard : (mrsOf publishedWorld ()).card = 1 := by
    unfold mrsOf
    rw [hlive]
    rfl
  have hcovers : ∀ i ∈ ({()} : Finset Unit), EntryCovers publishedWorld i := by
    intro i _
    show owedMr publishedWorld.shm (publishedWorld.procs ()).pid = _
    rw [hpid, publishedWorld_owed, hcard]
    rfl
  obtain ⟨slot, hslot⟩ := exists_slot_of_owed (by decide : (100 : Int) ≠ 0)
    (by rw [publishedWorld_owed]; decide)
  have hocc : publishedWorld.shm.processPids slot ≠ 0 := by
    rw [hslot]
    decide
  have hstep : ExitStep publishedWorld {()} watchedDead slot
      (gcHandleProcessExit slot watchedDead) :=
    .exit (Finset.mem_singleton_self ()) (show (0 : Int) ≤ 5 by decide)
      (hslot.trans hpid.symm)
  have hexits : Run (ExitStep publishedWorld {()}) watchedDead [slot]
      (gcHandleProcessExit slot watchedDead) :=
    Run.start.snoc hstep
  have hsettled : ∀ i ∈ ({()} : Finset Unit),
      owedMr (gcHandleProcessExit slot watchedDead).shm (publishedWorld.procs i).pid = 0 := by
    intro i _
    have hpath : ExitPath slot watchedDead := ⟨hocc, rfl, rfl⟩
    show owedMr _ (publishedWorld.procs ()).pid = 0
    rw [hpath.segments.1, hpid, ← hslot]
    exact (owedMr_clearSlot hwf hocc _).trans (if_pos rfl)
  exact ⟨publishedWorld, watchedDead, gcHandleProcessExit slot watchedDead, slot,
    publishedWorld_run, hcard, rfl, rfl, hexits,
    mr_count_matches_survivors soloWorld_start publishedWorld_run hcovers rfl rfl hexits hsettled⟩

/-- Without a QP nothing is published: a process registers MR 5 and dies, and
whatever the collector does, the tenant goes on counting the MR that no
process holds. -/
theorem unpublished_mr_stays_counted :
    MrStart 1 1 (soloWorld defaultQuota) ∧
      Run (MrStep 1) (soloWorld defaultQuota) [((), registerCall)] registeredWorld ∧
      ∀ (g₀ g₁ : GcState) (slots : List Slot) (probes : Slot → SlotProbe),
        g₀.shm = registeredWorld.shm → g₀.tenant = registeredWorld.tenant →
        Run (ExitStep registeredWorld {()}) g₀ slots g₁ →
        ((gcScanAndRegister probes g₁).tenant.tenants 1).usage.mrCount.toInt = 1 ∧
          (survivingMrs registeredWorld {()}).card = 0 := by
  refine ⟨soloWorld_start, registeredWorld_run, ?_⟩
  intro g₀ g₁ slots probes hshm htenant hexits
  rw [registeredWorld_eq.2.1] at hshm
  have hsame : g₁.shm = SharedMemory.zeroed ∧ g₁.tenant = registeredWorld.tenant := by
    refine hexits.invariant (P := fun g => g.shm = SharedMemory.zeroed ∧
      g.tenant = registeredWorld.tenant) ⟨hshm, htenant⟩ ?_
    intro g slot g' hg hstep
    cases hstep
    rcases gcHandleProcessExit_cases slot g with ⟨_, hshm, htenant⟩ | ⟨_, hocc, _, _⟩
    · exact ⟨hshm.trans hg.1, htenant.trans hg.2⟩
    · rw [hg.1] at hocc
      exact absurd rfl hocc
  constructor
  · have hmr : ((gcScanAndRegister probes g₁).tenant.tenants 1).usage.mrCount =
        (ledger registeredWorld.tenant 1).usage.mrCount := by
      rw [gcScanAndRegister_tenant, hsame.2]
      rfl
    rw [hmr, ledger_registeredWorld]
    rfl
  · unfold survivingMrs
    rw [registeredWorld_eq.2.2.2.1]
    rfl

end MtRdma.Ports.MrReclaim
