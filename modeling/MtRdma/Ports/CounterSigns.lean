import MtRdma.Verified.Runs
import MtRdma.Ports.ChargedTenant
import MtRdma.Ports.CollectorGc
import MtRdma.Ports.HookFrame
import MtRdma.Ports.TenantIsolation

/-!
# The signs of the tenant counters

`update_tenant_resource_count` holds only the QP count at zero.  The MR, CQ and
PD counts go down by one for every successful destruction, whichever tenant the
object was counted for when it was created; the MR check then reads a negative
count as a huge unsigned one and refuses everything.

The counters of all tenants stay non-negative in the runs in which every such
destruction finds something to take back, no count is at the upper end of `int`
when it is raised, and no reclaimed entry has a negative MR count.
-/

namespace MtRdma.Ports.CounterSigns

open Verified.MachineInt
open Verified.Runs
open Verified.SlotScan
open SharedMemory (Slot SharedMemoryData ResourceUsage)
open SharedMemoryTenant hiding tenantStep
open RdmaHooks
open CollectorGc

variable {kind : ResourceKind} {delta : Int32} {attr : QpInitAttr}

/-! ## Usage records -/

/-- No counter of the record is negative. -/
structure NonNeg (u : TenantResourceUsage) : Prop where
  qp : 0 ≤ u.qpCount.toInt
  mr : 0 ≤ u.mrCount.toInt
  cq : 0 ≤ u.cqCount.toInt
  pd : 0 ≤ u.pdCount.toInt

theorem NonNeg.zero : NonNeg .zero := ⟨by decide, by decide, by decide, by decide⟩

section Usage

variable {u : TenantResourceUsage}

/-- A count that is raised below the end of `int`. -/
theorem nonneg_add_one {x : Int32} (h : 0 ≤ x.toInt) (hroom : x.toInt < 2 ^ 31 - 1) :
    0 ≤ (x + 1).toInt := by
  rw [toInt_add_one hroom]
  omega

/-- A positive count that is lowered. -/
theorem nonneg_add_neg_one {x : Int32} (h : 0 < x.toInt) : 0 ≤ (x + -1).toInt := by
  rw [toInt_add_neg_one]
  split <;> omega

theorem NonNeg.clampQp (h : NonNeg u) : NonNeg (clampQp u) := by
  rw [clampQp_of_nonneg h.qp]
  exact h

theorem NonNeg.reserveQp (h : NonNeg u) (hroom : u.qpCount.toInt < 2 ^ 31 - 1) :
    NonNeg (reserveQp u) :=
  ⟨nonneg_add_one h.qp hroom, h.mr, h.cq, h.pd⟩

theorem NonNeg.rollbackQp (h : NonNeg u) : NonNeg (rollbackQp u) := by
  refine ⟨?_, h.mr, h.cq, h.pd⟩
  show 0 ≤ (if 0 < u.qpCount then u.qpCount - 1 else u.qpCount).toInt
  split
  · rename_i hpos
    have hpos' := Int32.lt_iff_toInt_lt.mp hpos
    rw [Int32.toInt_zero] at hpos'
    rw [toInt_sub_one (by omega)]
    omega
  · exact h.qp

/-- What a change of one count by `delta` needs: the QP count is only raised
with care, the others are not lowered below zero either. -/
def Movable (kind : ResourceKind) (delta : Int32) (u : TenantResourceUsage) : Prop :=
  0 ≤ (count u kind + delta).toInt ∨ (kind = .qp ∧ delta < 0)

theorem NonNeg.countDelta (h : NonNeg u) (hmove : Movable kind delta u) :
    NonNeg (countDelta kind delta u) := by
  cases kind with
  | qp =>
      refine ⟨?_, h.mr, h.cq, h.pd⟩
      rw [qpCount_countDelta]
      split
      · decide
      · rename_i hneg
        have hneg' := mt Int32.lt_iff_toInt_lt.mpr hneg
        rw [Int32.toInt_zero] at hneg'
        omega
  | mr => exact ⟨h.qp, hmove.resolve_right (by simp), h.cq, h.pd⟩
  | cq => exact ⟨h.qp, h.mr, hmove.resolve_right (by simp), h.pd⟩
  | pd => exact ⟨h.qp, h.mr, h.cq, hmove.resolve_right (by simp)⟩

/-- What is left after a reclamation is non-negative unless the entry's own
count was negative. -/
theorem reclaimed_nonneg {x dead : Int32} (hdead : 0 ≤ dead.toInt) :
    0 ≤ (if dead < x then x - dead else 0).toInt := by
  split
  · rename_i hlt
    have hlt' := Int32.lt_iff_toInt_lt.mp hlt
    rw [toInt_sub_of_le hdead (by omega)]
    omega
  · decide

theorem NonNeg.reclaimed (h : NonNeg u) {dead : ResourceUsage} (hqp : 0 ≤ dead.qpCount.toInt)
    (hmr : 0 ≤ dead.mrCount.toInt) : NonNeg (reclaimedUsage u dead) :=
  ⟨reclaimed_nonneg hqp, reclaimed_nonneg hmr, h.cq, h.pd⟩

end Usage

/-! ## All tenants -/

/-- No tenant has a negative counter. -/
def AllNonNeg (s : TenantSharedMemory) : Prop := ∀ t, NonNeg (ledger s t).usage

/-- The number names a record, and the tenant in it is ACTIVE. -/
def Reaches (tenantId : UInt32) (s : TenantSharedMemory) (t : TenantIdx) : Prop :=
  tenantIdx? tenantId = some t ∧ (ledger s t).status = .active

/-- What the record says that the number reaches, if it reaches one. -/
def Finds (tenantId : UInt32) (s : TenantSharedMemory) (P : TenantResourceUsage → Prop) : Prop :=
  ∀ t, Reaches tenantId s t → P (ledger s t).usage

section Store

variable {s s' : TenantSharedMemory} {tenantId : UInt32} {P Q : TenantResourceUsage → Prop}

theorem Finds.of_ledger (h : Finds tenantId s P) (hsame : ledger s' = ledger s) :
    Finds tenantId s' P := by
  unfold Finds Reaches
  rw [hsame]
  exact h

theorem Finds.imp (h : Finds tenantId s P) (hnonneg : AllNonNeg s)
    (himp : ∀ u, NonNeg u → P u → Q u) : Finds tenantId s Q :=
  fun t ht => himp _ (hnonneg t) (h t ht)

theorem AllNonNeg.of_ledger (h : AllNonNeg s) (hsame : ledger s' = ledger s) : AllNonNeg s' := by
  intro t
  rw [hsame]
  exact h t

theorem AllNonNeg.update (h : AllNonNeg s) {t : TenantIdx} {l : Ledger} (hl : NonNeg l.usage)
    (hledger : ledger s' = Function.update (ledger s) t l) : AllNonNeg s' := by
  intro t'
  rw [hledger]
  by_cases ht : t' = t
  · rw [ht, Function.update_self]
    exact hl
  · rw [Function.update_of_ne ht]
    exact h t'

/-- A call about one tenant leaves its own record non-negative. -/
theorem AllNonNeg.store (h : AllNonNeg s) {call : StoreCall}
    (hcall : ∀ t, call.names t = true → NonNeg ((ledger s t).call call).2.usage) :
    AllNonNeg (storeCall s call).2 := by
  intro t
  cases hnames : call.names t with
  | false =>
      rw [ledger_of_not_names s hnames]
      exact h t
  | true =>
      obtain ⟨n, hid, ht⟩ := names_iff.mp hnames
      rw [(storeCall_refines hid ht).ledgers, Function.update_self]
      exact hcall t hnames

theorem AllNonNeg.rewriteUsage (h : AllNonNeg s)
    {f : TenantResourceUsage → TenantResourceUsage}
    (hf : ∀ t, Reaches tenantId s t → NonNeg (f (ledger s t).usage)) :
    AllNonNeg (rewriteUsage tenantId f s) := by
  cases ht : tenantIdx? tenantId with
  | none =>
      have hsame : RdmaHooks.rewriteUsage tenantId f s = s := by
        simp [RdmaHooks.rewriteUsage, tenantGetResourceUsage, ht]
      rw [hsame]
      exact h
  | some t =>
      by_cases hact : (s.tenants t).status = .active
      · exact h.update (hf t ⟨ht, hact⟩) (ledgers_rewriteUsage ht hact f)
      · have hsame : RdmaHooks.rewriteUsage tenantId f s = s := by
          simp [RdmaHooks.rewriteUsage, tenantGetResourceUsage, ht, hact]
        rw [hsame]
        exact h

/-- A reservation raises the QP count once. -/
theorem AllNonNeg.tryAllocateQp (h : AllNonNeg s)
    (hroom : Finds tenantId s fun u => u.qpCount.toInt < 2 ^ 31 - 1) :
    AllNonNeg (tenantTryAllocateQp tenantId s).2 := by
  show AllNonNeg (storeCall s (.tryAllocateQp tenantId)).2
  refine h.store fun t hnames => ?_
  obtain ⟨n, hid, ht⟩ := names_iff.mp hnames
  obtain rfl := Option.some.inj hid
  have hclamp := (h t).clampQp
  simp only [Ledger.call]
  split
  · exact h t
  · rename_i hact
    split
    · exact hclamp
    · refine hclamp.reserveQp ?_
      rw [clampQp_of_nonneg (h t).qp]
      exact hroom t ⟨ht, not_not.mp hact⟩

/-- A new tenant starts at zero; the other calls that manage tenants and
bindings touch no usage record. -/
theorem AllNonNeg.manage (h : AllNonNeg s) (op : TenantOp) : AllNonNeg (tenantApply s op).2 := by
  cases op with
  | create tenantId name quota =>
      show AllNonNeg (storeCall s (.create tenantId name quota)).2
      refine h.store fun t _ => ?_
      simp only [Ledger.call]
      split
      · exact h t
      · exact .zero
  | delete tenantId =>
      show AllNonNeg (storeCall s (.delete tenantId)).2
      refine h.store fun t _ => ?_
      simp only [Ledger.call]
      split <;> exact h t
  | setStatus tenantId status =>
      show AllNonNeg (storeCall s (.setStatus tenantId status)).2
      refine h.store fun t _ => ?_
      simp only [Ledger.call]
      split <;> exact h t
  | updateQuota tenantId quota =>
      show AllNonNeg (storeCall s (.updateQuota tenantId (some quota))).2
      refine h.store fun t _ => ?_
      simp only [Ledger.call]
      split <;> exact h t
  | bind pid tenantId => exact h.of_ledger (ledger_bind pid tenantId s)
  | unbind pid => exact h.of_ledger (ledger_unbind pid s)

/-- The tenant of a reclaimed entry, which had QPs. -/
theorem AllNonNeg.adjust (h : AllNonNeg s) (pid : Int) {dead : ResourceUsage}
    (hmr : 0 ≤ dead.mrCount.toInt) : AllNonNeg (gcAdjustTenant pid dead s) := by
  unfold gcAdjustTenant
  split
  · rename_i hcond
    have hqp := Int32.lt_iff_toInt_lt.mp hcond.2
    rw [Int32.toInt_zero] at hqp
    split
    · exact h
    · split
      · exact h.rewriteUsage fun t _ => (h t).reclaimed hqp.le hmr
      · exact h
  · exact h

end Store

/-! ## Hooks -/

section Hooks

variable {env : HookEnv} {v : View}

theorem AllNonNeg.resolve (h : AllNonNeg v.tenant) :
    AllNonNeg (getCurrentTenantId env v).2.tenant :=
  h.of_ledger (ledger_getCurrentTenantId env v)

theorem AllNonNeg.init (h : AllNonNeg v.tenant) : AllNonNeg (hooksInitOnce env v).tenant :=
  h.of_ledger (ledger_hooksInitOnce env v)

theorem AllNonNeg.count (h : AllNonNeg v.tenant) {tenantId : UInt32}
    (hmove : Finds tenantId v.tenant (Movable kind delta)) :
    AllNonNeg (updateTenantResourceCount tenantId kind delta v).tenant := by
  unfold updateTenantResourceCount
  split
  · exact h
  · exact h.rewriteUsage fun t ht => (h t).countDelta (hmove t ht)

theorem AllNonNeg.resolveCount (h : AllNonNeg v.tenant)
    (hmove : Finds (getCurrentTenantId env v).1 v.tenant (Movable kind delta)) :
    AllNonNeg (updateTenantResourceCount (getCurrentTenantId env v).1 kind delta
      (getCurrentTenantId env v).2).tenant :=
  h.resolve.count (hmove.of_ledger (ledger_getCurrentTenantId env v))

theorem AllNonNeg.tenantStep (h : AllNonNeg v.tenant)
    (hroom : Finds (getCurrentTenantId env v).1 v.tenant fun u => u.qpCount.toInt < 2 ^ 31 - 1) :
    AllNonNeg (tenantStep env v).2.tenant := by
  by_cases hne : (getCurrentTenantId env v).1 = 0
  · have hstep : (RdmaHooks.tenantStep env v).2 = (getCurrentTenantId env v).2 := by
      unfold RdmaHooks.tenantStep
      simp [hne]
    rw [hstep]
    exact h.resolve
  · rw [tenantStep_bound hne]
    exact h.resolve.tryAllocateQp (hroom.of_ledger (ledger_getCurrentTenantId env v))

theorem AllNonNeg.createForTenant (h : AllNonNeg v.tenant) {real : QpInitAttr → Option Nat}
    (hroom : Finds (getCurrentTenantId env v).1 v.tenant fun u => u.qpCount.toInt < 2 ^ 31 - 1) :
    AllNonNeg (createForTenant env real attr v).2.tenant := by
  have hstep := h.tenantStep hroom
  have hcases := createForTenant_cases env real attr v
  generalize RdmaHooks.createForTenant env real attr v = result at hcases ⊢
  cases hcases with
  | denied => exact hstep
  | created =>
      rw [publish_tenant]
      exact hstep
  | failed =>
      split
      · exact hstep.rewriteUsage fun t _ => (hstep t).rollbackQp
      · exact hstep

theorem AllNonNeg.createCounted (h : AllNonNeg v.tenant) {found : RealVerbs → Bool}
    {real : Option Nat}
    (hmove : Finds (getCurrentTenantId env (hooksInitOnce env v)).1 (hooksInitOnce env v).tenant
      (Movable kind 1)) :
    AllNonNeg (createCounted kind found env real v).2.tenant := by
  unfold RdmaHooks.createCounted
  simp only
  split
  · exact h.init
  · split
    · exact h.init
    · split
      · exact h.init
      · exact h.init.resolveCount hmove

theorem AllNonNeg.destroyCounted (h : AllNonNeg v.tenant) {found : RealVerbs → Bool} {real : Int}
    (hmove : real = 0 → Finds (getCurrentTenantId env (hooksInitOnce env v)).1
      (hooksInitOnce env v).tenant (Movable kind (-1))) :
    AllNonNeg (destroyCounted kind found env real v).2.tenant := by
  unfold RdmaHooks.destroyCounted
  simp only
  split
  · exact h.init
  · split
    · exact h.init
    · split
      · rename_i hreal
        exact h.init.resolveCount (hmove hreal)
      · exact h.init

/-- The process's own counters move first, which resolution does not see. -/
theorem AllNonNeg.resolveCount_congr (h : AllNonNeg v.tenant) {p : Process}
    (hsame : SameIdentity v.proc p)
    (hmove : Finds (getCurrentTenantId env v).1 v.tenant (Movable kind delta)) :
    AllNonNeg (updateTenantResourceCount (getCurrentTenantId env { v with proc := p }).1 kind delta
      (getCurrentTenantId env { v with proc := p }).2).tenant := by
  refine AllNonNeg.resolveCount (v := { v with proc := p }) h ?_
  rw [(getCurrentTenantId_congr env (w := { v with proc := p }) hsame rfl).1]
  exact hmove

theorem AllNonNeg.destroyQp (h : AllNonNeg v.tenant) {real : Int} :
    AllNonNeg (ibvDestroyQp env real v).2.tenant := by
  have hinit : AllNonNeg (hooksInitOnce env v).tenant := h.init
  unfold ibvDestroyQp
  simp only
  generalize hooksInitOnce env v = w at hinit ⊢
  split
  · exact hinit
  · split
    · exact hinit
    · split
      · have hsame : SameIdentity w.proc (uncountOwnQp w.proc) := ⟨rfl, rfl, rfl⟩
        have hdown : (-1 : Int32) < 0 := by decide
        dsimp only
        generalize (-1 : Int32) = delta at hdown ⊢
        exact hinit.resolveCount_congr hsame fun t _ => .inr ⟨rfl, hdown⟩
      · exact hinit

theorem AllNonNeg.regMr (h : AllNonNeg v.tenant) {length : UInt64} {real : Option Nat}
    (hmove : Finds (getCurrentTenantId env (hooksInitOnce env v)).1 (hooksInitOnce env v).tenant
      (Movable .mr 1)) :
    AllNonNeg (ibvRegMr env length real v).2.tenant := by
  have hinit : AllNonNeg (hooksInitOnce env v).tenant := h.init
  have hcases := ibvRegMr_cases env length real v
  generalize ibvRegMr env length real v = result at hcases ⊢
  generalize hooksInitOnce env v = w at hcases hinit hmove ⊢
  cases hcases with
  | missing | passed => exact hinit
  | overQuota | overRate | refused => exact hinit.resolve
  | registered =>
      exact AllNonNeg.count (v := ⟨countOwnMr length _, (getCurrentTenantId env w).2.shm,
        (getCurrentTenantId env w).2.tenant⟩) hinit.resolve
        (hmove.of_ledger (ledger_getCurrentTenantId env w))

theorem AllNonNeg.deregMr (h : AllNonNeg v.tenant) {length : UInt64} {real : Int}
    (hmove : real = 0 → Finds (getCurrentTenantId env (hooksInitOnce env v)).1
      (hooksInitOnce env v).tenant (Movable .mr (-1))) :
    AllNonNeg (ibvDeregMr env length real v).2.tenant := by
  have hinit : AllNonNeg (hooksInitOnce env v).tenant := h.init
  have hcases := ibvDeregMr_cases env length real v
  generalize ibvDeregMr env length real v = result at hcases ⊢
  generalize hooksInitOnce env v = w at hcases hinit hmove ⊢
  cases hcases with
  | missing | passed | overRate | refused => exact hinit
  | deregistered u hreal hu =>
      have hsame := checkMrRateLimit_identity env w.proc
      have hsame' : SameIdentity w.proc (uncountOwnMr length (checkMrRateLimit env w.proc).2) :=
        ⟨hsame.pid, hsame.tenantInitialized, hsame.cachedPid⟩
      have hmove' := hmove hreal
      subst hu
      dsimp only
      generalize (-1 : Int32) = delta at hmove' ⊢
      exact hinit.resolveCount_congr hsame' hmove'

theorem AllNonNeg.creation (h : AllNonNeg v.tenant) {verb : Option (QpInitAttr → Option Nat)}
    {permitted : Bool} {result : CreateQpResult × View}
    (hcases : CreationOutcome env verb permitted attr v result)
    (hroom : Finds (getCurrentTenantId env v).1 v.tenant fun u => u.qpCount.toInt < 2 ^ 31 - 1) :
    AllNonNeg result.2.tenant := by
  cases hcases with
  | missing | passed | refused => exact h
  | checked => exact h.createForTenant hroom

end Hooks

/-- What a call needs of the record it counts in: room above to create, and
something to take back to destroy; only the QP count is held at zero. -/
def Countable (u : TenantResourceUsage) : HookCall → Prop
  | .createQp .. => u.qpCount.toInt < 2 ^ 31 - 1
  | .createQpEx .. => u.qpCount.toInt < 2 ^ 31 - 1
  | .destroyQp .. => True
  | .regMr .. => u.mrCount.toInt < 2 ^ 31 - 1
  | .deregMr _ _ _ real => real = 0 → 0 < u.mrCount.toInt
  | .createCq .. => u.cqCount.toInt < 2 ^ 31 - 1
  | .destroyCq _ _ real => real = 0 → 0 < u.cqCount.toInt
  | .allocPd .. => u.pdCount.toInt < 2 ^ 31 - 1
  | .deallocPd _ _ real => real = 0 → 0 < u.pdCount.toInt

/-- The record of the tenant that the caller resolves to is fit for the
call. -/
def CountsWithin (call : HookCall) (v : View) : Prop :=
  ∀ t, Reaches (call.resolved v) v.tenant t → Countable (ledger v.tenant t).usage call

theorem AllNonNeg.exec {v : View} (h : AllNonNeg v.tenant) {call : HookCall}
    (hok : CountsWithin call v) : AllNonNeg (call.exec v).2.tenant := by
  -- the once-only initialization changes no ledger
  have hinit := fun env => ledger_hooksInitOnce env v
  have hfinds : Finds (call.resolved v) v.tenant fun u => Countable u call := hok
  cases call with
  | createQp env real attr =>
      exact h.init.creation (ibvCreateQp_cases env real attr v) (hfinds.of_ledger (hinit env))
  | createQpEx env real context attr =>
      exact h.creation (createQpExWrapper_cases env real context attr v) hfinds
  | destroyQp env qp real => exact h.destroyQp
  | regMr env length real =>
      have hmove : Finds _ v.tenant (Movable .mr 1) :=
        hfinds.imp h fun u hu hbelow => .inl (nonneg_add_one hu.mr hbelow)
      exact h.regMr (hmove.of_ledger (hinit env))
  | deregMr env mr length real =>
      have hmove : real = 0 → Finds _ v.tenant (Movable .mr (-1)) := fun hreal =>
        hfinds.imp h fun u _ hpos => .inl (nonneg_add_neg_one (hpos hreal))
      exact h.deregMr fun hreal => (hmove hreal).of_ledger (hinit env)
  | createCq env real =>
      have hmove : Finds _ v.tenant (Movable .cq 1) :=
        hfinds.imp h fun u hu hbelow => .inl (nonneg_add_one hu.cq hbelow)
      exact h.createCounted (hmove.of_ledger (hinit env))
  | destroyCq env cq real =>
      have hmove : real = 0 → Finds _ v.tenant (Movable .cq (-1)) := fun hreal =>
        hfinds.imp h fun u _ hpos => .inl (nonneg_add_neg_one (hpos hreal))
      exact h.destroyCounted fun hreal => (hmove hreal).of_ledger (hinit env)
  | allocPd env real =>
      have hmove : Finds _ v.tenant (Movable .pd 1) :=
        hfinds.imp h fun u hu hbelow => .inl (nonneg_add_one hu.pd hbelow)
      exact h.createCounted (hmove.of_ledger (hinit env))
  | deallocPd env pd real =>
      have hmove : real = 0 → Finds _ v.tenant (Movable .pd (-1)) := fun hreal =>
        hfinds.imp h fun u _ hpos => .inl (nonneg_add_neg_one (hpos hreal))
      exact h.destroyCounted fun hreal => (hmove hreal).of_ledger (hinit env)

/-! ## Runs -/

/-- The collector's state with both segments, and the processes. -/
structure SignWorld (ι : Type) where
  gc : GcState
  procs : ι → Process

/-- Hook calls, calls that manage tenants and bindings, exit events and scans
of the collector. -/
inductive SignEvent (ι : Type) where
  | hook (i : ι) (call : HookCall)
  | manage (op : TenantOp)
  | exit (slot : Slot)
  | scan (probes : Slot → SlotProbe)

section Runs

variable {ι : Type} [DecidableEq ι]

def SignWorld.view (w : SignWorld ι) (i : ι) : View := ⟨w.procs i, w.gc.shm, w.gc.tenant⟩

/-- The world after an event. -/
def signStep (w : SignWorld ι) : SignEvent ι → SignWorld ι
  | .hook i call =>
      let v := (call.exec (w.view i)).2
      { gc := { w.gc with shm := v.shm, tenant := v.tenant }
        procs := Function.update w.procs i v.proc }
  | .manage op => { w with gc := { w.gc with tenant := (tenantApply w.gc.tenant op).2 } }
  | .exit slot => { w with gc := gcHandleProcessExit slot w.gc }
  | .scan probes => { w with gc := gcScanAndRegister probes w.gc }

/-- A hook call finds a record fit for it, and a reclaimed entry has no
negative MR count. -/
def SignsKept (w : SignWorld ι) : SignEvent ι → Prop
  | .hook i call => CountsWithin call (w.view i)
  | .manage _ => True
  | .exit slot => 0 ≤ (w.gc.shm.processStats slot).mrCount.toInt
  | .scan _ => True

theorem AllNonNeg.step {w : SignWorld ι} (h : AllNonNeg w.gc.tenant) {e : SignEvent ι}
    (hok : SignsKept w e) : AllNonNeg (signStep w e).gc.tenant := by
  cases e with
  | hook i call => exact AllNonNeg.exec (v := w.view i) h hok
  | manage op => exact h.manage op
  | exit slot =>
      show AllNonNeg (gcHandleProcessExit slot w.gc).tenant
      rcases gcHandleProcessExit_cases slot w.gc with ⟨-, -, htenant⟩ | ⟨-, -, -, htenant⟩
      · rw [htenant]
        exact h
      · rw [htenant]
        exact h.adjust _ hok
  | scan probes =>
      show AllNonNeg (gcScanAndRegister probes w.gc).tenant
      rw [gcScanAndRegister_tenant]
      exact h

/-- **Tenant counters never go negative** in a run whose calls all find a
record fit for them. -/
theorem counters_never_negative {w₀ w : SignWorld ι} {events : List (SignEvent ι)}
    (hstart : w₀.gc.tenant = SharedMemoryTenant.zeroed)
    (hrun : Run (fun w e w' => SignsKept w e ∧ w' = signStep w e) w₀ events w) :
    AllNonNeg w.gc.tenant := by
  refine Run.invariant (P := fun w : SignWorld ι => AllNonNeg w.gc.tenant) ?_ ?_ hrun
  · rw [hstart]
    intro t
    exact .zero
  · rintro w₁ e w₂ h ⟨hok, rfl⟩
    exact h.step hok

end Runs

/-! ## An MR that is older than the binding of its process -/

/-- One process and the given tenants. -/
def loneWorld (p : Process) (s : TenantSharedMemory) : SignWorld Unit :=
  ⟨⟨SharedMemory.zeroed, s, fun _ => .unregistered, []⟩, fun _ => p⟩

/-- Tenant 1 is created. -/
def createEvent : SignEvent Unit := .manage (.create 1 none (some defaultQuota))

theorem soloPid_pos : (0 : Int) < 100 := by decide

/-- Process 100 is bound to it. -/
def bindEvent : SignEvent Unit := .manage (.bind ⟨100, soloPid_pos⟩ 1)

/-- The provider registers MR 5. -/
def regEvent : SignEvent Unit := .hook () (.regMr quietEnv 4096 (some 5))

/-- The provider deregisters it. -/
def deregEvent : SignEvent Unit := .hook () (.deregMr quietEnv 5 4096 0)

theorem loneWorld_bound (p : Process) :
    signStep (signStep (loneWorld p SharedMemoryTenant.zeroed) createEvent) bindEvent =
      loneWorld p (soloTenant 100 defaultQuota) := rfl

theorem loneWorld_hook {p p' : Process} {s s' : TenantSharedMemory} {call : HookCall}
    (hexec : (call.exec ⟨p, SharedMemory.zeroed, s⟩).2 = ⟨p', SharedMemory.zeroed, s'⟩) :
    signStep (loneWorld p s) (.hook () call) = loneWorld p' s' := by
  have hview : (call.exec ((loneWorld p s).view ())).2 = ⟨p', SharedMemory.zeroed, s'⟩ := hexec
  have hprocs : Function.update (fun _ : Unit => p) () p' = fun _ => p' := by
    funext i
    cases i
    rw [Function.update_self]
  unfold signStep
  simp only [hview]
  exact congrArg (SignWorld.mk _) hprocs

/-- A settled process 100 belongs to tenant 1. -/
theorem solo_resolved {p : Process} (hsettled : Settled quietEnv p) (hpid : p.pid = 100) :
    (getCurrentTenantId quietEnv ⟨p, SharedMemory.zeroed, soloTenant 100 defaultQuota⟩).1 = 1 := by
  rw [Settled.resolved (v := ⟨p, SharedMemory.zeroed, soloTenant 100 defaultQuota⟩) hsettled]
  show tenantGetProcessTenant p.pid (soloTenant 100 defaultQuota) = some 1
  rw [hpid]
  exact soloTenant_get (by decide) defaultQuota

/-- A bound process that has not created anything may register an MR. -/
theorem counters_never_negative_bound :
    ∃ w, Run (fun w e w' => SignsKept w e ∧ w' = signStep w e)
        (loneWorld (settledProcess 100) SharedMemoryTenant.zeroed)
        [createEvent, bindEvent, regEvent] w ∧ AllNonNeg w.gc.tenant := by
  have hok : SignsKept (loneWorld (settledProcess 100) (soloTenant 100 defaultQuota)) regEvent := by
    intro t ht
    have hresolved := solo_resolved (settledProcess_settled 100) rfl
    change Reaches (getCurrentTenantId quietEnv ⟨settledProcess 100, SharedMemory.zeroed,
      soloTenant 100 defaultQuota⟩).1 _ t at ht
    rw [hresolved] at ht
    obtain rfl : 1 = t := Option.some.inj (tenantIdx?_one.symm.trans ht.1)
    show (ledger (soloTenant 100 defaultQuota) 1).usage.mrCount.toInt < 2 ^ 31 - 1
    rw [(soloTenant_fresh (by decide) defaultQuota).ledger_eq]
    decide
  have hrun : Run (fun w e w' => SignsKept w e ∧ w' = signStep w e)
      (loneWorld (settledProcess 100) SharedMemoryTenant.zeroed)
      [createEvent, bindEvent, regEvent] _ :=
    ((Run.start.snoc ⟨trivial, rfl⟩).snoc ⟨trivial, rfl⟩).snoc ⟨hok, rfl⟩
  exact ⟨_, hrun, counters_never_negative rfl hrun⟩

/-- Registered without a tenant, the MR is counted by the process alone. -/
theorem unbound_regMr :
    signStep (loneWorld (settledProcess 100) SharedMemoryTenant.zeroed) regEvent =
      loneWorld (countOwnMr 4096 (settledProcess 100)) SharedMemoryTenant.zeroed := by
  have hsettled : Settled quietEnv (settledProcess 100) := settledProcess_settled 100
  have hget : tenantGetProcessTenant 100 SharedMemoryTenant.zeroed = none := get_zeroed (by decide)
  have hresolve : getCurrentTenantId quietEnv
      ⟨settledProcess 100, SharedMemory.zeroed, SharedMemoryTenant.zeroed⟩ =
        (0, ⟨settledProcess 100, SharedMemory.zeroed, SharedMemoryTenant.zeroed⟩) := by
    rw [Settled.getCurrentTenantId (by exact hsettled)]
    show ((tenantGetProcessTenant 100 SharedMemoryTenant.zeroed).getD 0, _) = _
    rw [hget]
    rfl
  have hexec : ibvRegMr quietEnv 4096 (some 5)
      ⟨settledProcess 100, SharedMemory.zeroed, SharedMemoryTenant.zeroed⟩ =
        (⟨some 5, none, true⟩, ⟨countOwnMr 4096 (settledProcess 100), SharedMemory.zeroed,
          SharedMemoryTenant.zeroed⟩) := by
    unfold ibvRegMr
    rw [Settled.hooksInitOnce (by exact hsettled)]
    simp only [hresolve]
    rfl
  exact loneWorld_hook (congrArg Prod.snd hexec)

/-- **A counter goes negative.**  A process without a tenant registers an MR, is
bound to a new tenant, and deregisters the MR: the tenant has counted -1 MRs. -/
theorem counter_goes_negative :
    ∃ w, Run (fun w e w' => w' = signStep w e)
        (loneWorld (settledProcess 100) SharedMemoryTenant.zeroed)
        [regEvent, createEvent, bindEvent, deregEvent] w ∧
      (ledger w.gc.tenant 1).status = .active ∧ (ledger w.gc.tenant 1).usage.mrCount = -1 := by
  have hreg : Run (fun w e w' => w' = signStep w e)
      (loneWorld (settledProcess 100) SharedMemoryTenant.zeroed) [regEvent]
      (loneWorld (countOwnMr 4096 (settledProcess 100)) SharedMemoryTenant.zeroed) :=
    Run.start.snoc unbound_regMr.symm
  have hbound := (hreg.snoc (a := createEvent) rfl).snoc (a := bindEvent) rfl
  rw [loneWorld_bound] at hbound
  refine ⟨_, hbound.snoc (a := deregEvent) rfl, ?_⟩
  have hsettled : Settled quietEnv (countOwnMr 4096 (settledProcess 100)) := ⟨rfl, rfl, rfl, rfl⟩
  have hfresh := soloTenant_fresh (by decide : (100 : Int) ≠ 0) defaultQuota
  have hledger : ledger (signStep (loneWorld (countOwnMr 4096 (settledProcess 100))
      (soloTenant 100 defaultQuota)) deregEvent).gc.tenant =
        recount 1 .mr (-1) (ledger (soloTenant 100 defaultQuota)) := by
    show ledger (ibvDeregMr quietEnv 4096 0 ⟨countOwnMr 4096 (settledProcess 100),
      SharedMemory.zeroed, soloTenant 100 defaultQuota⟩).2.tenant = _
    have hrc : (ibvDeregMr quietEnv 4096 0 ⟨countOwnMr 4096 (settledProcess 100),
      SharedMemory.zeroed, soloTenant 100 defaultQuota⟩).1.rc = 0 := rfl
    rw [ibvDeregMr_ledgers 4096 0 rfl, if_pos hrc, Settled.hooksInitOnce (by exact hsettled),
      solo_resolved hsettled rfl]
  rw [hledger, recount_active hfresh.ne_zero hfresh.idx (by rw [hfresh.ledger_eq]),
    Function.update_self, withUsage_usage, mrCount_countDelta, hfresh.ledger_eq]
  exact ⟨rfl, by decide⟩

end MtRdma.Ports.CounterSigns
