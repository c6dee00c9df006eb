import MtRdma.Verified.Runs
import MtRdma.Ports.QpLedger

/-!
# Exact accounting by the hooks of one tenant

Processes of one tenant call the nine counting hooks one at a time, in any
order, while the quota changes under them and the real verbs succeed or fail
as they like.  Next to the real state the world keeps the set of objects that
exist: an object belongs to the process that created it, since handles are
addresses.

The invariant is about the ledger only.  A reservation that is rolled back
leaves no trace, and every other rewrite moves the count by the object that
appeared or went away.
-/

namespace MtRdma.Ports.RdmaHooks

open Verified.MachineInt
open Verified.Runs
open SharedMemory
open SharedMemoryTenant

/-! ## Hook calls and what they report -/

/-- The nine counting hooks, with what each call learns from the system and
what its real verb answers. -/
inductive HookCall where
  | createQp (env : HookEnv) (real : QpInitAttr → Option Nat) (attr : QpInitAttr)
  | createQpEx (env : HookEnv) (real : Nat → QpInitAttr → Option Nat) (context : Nat)
      (attr : QpInitAttr)
  | destroyQp (env : HookEnv) (qp : Nat) (real : Int)
  | regMr (env : HookEnv) (length : UInt64) (real : Option Nat)
  | deregMr (env : HookEnv) (mr : Nat) (length : UInt64) (real : Int)
  | createCq (env : HookEnv) (real : Option Nat)
  | destroyCq (env : HookEnv) (cq : Nat) (real : Int)
  | allocPd (env : HookEnv) (real : Option Nat)
  | deallocPd (env : HookEnv) (pd : Nat) (real : Int)

/-- The kind of object a call is about. -/
def HookCall.kind : HookCall → ResourceKind
  | .createQp .. => .qp
  | .createQpEx .. => .qp
  | .destroyQp .. => .qp
  | .regMr .. => .mr
  | .deregMr .. => .mr
  | .createCq .. => .cq
  | .destroyCq .. => .cq
  | .allocPd .. => .pd
  | .deallocPd .. => .pd

/-- The object a call created, the object it destroyed, and whether it invoked
the real verb that creates objects of its kind. -/
structure HookReport where
  created : Option Nat
  destroyed : Option Nat
  creatingVerb : Bool

/-- Report of a destroying hook called for `object`. -/
def reportDestroy (object : Nat) (r : DestroyResult) : HookReport :=
  ⟨none, if r.rc = 0 then some object else none, false⟩

/-- Run a call. -/
def HookCall.exec (call : HookCall) (v : View) : HookReport × View :=
  match call with
  | .createQp env real attr =>
      let r := ibvCreateQp env real attr v
      (⟨r.1.qp, none, r.1.invoked.isSome⟩, r.2)
  | .createQpEx env real context attr =>
      let r := createQpExWrapper env real context attr v
      (⟨r.1.qp, none, r.1.invoked.isSome⟩, r.2)
  | .destroyQp env qp real =>
      let r := ibvDestroyQp env real v
      (reportDestroy qp r.1, r.2)
  | .regMr env length real =>
      let r := ibvRegMr env length real v
      (⟨r.1.object, none, r.1.invoked⟩, r.2)
  | .deregMr env mr length real =>
      let r := ibvDeregMr env length real v
      (reportDestroy mr r.1, r.2)
  | .createCq env real =>
      let r := ibvCreateCq env real v
      (⟨r.1.object, none, r.1.invoked⟩, r.2)
  | .destroyCq env cq real =>
      let r := ibvDestroyCq env real v
      (reportDestroy cq r.1, r.2)
  | .allocPd env real =>
      let r := ibvAllocPd env real v
      (⟨r.1.object, none, r.1.invoked⟩, r.2)
  | .deallocPd env pd real =>
      let r := ibvDeallocPd env real v
      (reportDestroy pd r.1, r.2)

/-! ## Exact ledgers -/

/-- Quotas that an `int` can count up to. -/
structure SmallQuota (quota : TenantQuota) : Prop where
  qp : quota.maxQpPerTenant.toNat ≤ 2 ^ 31 - 1
  mr : quota.maxMrPerTenant.toNat ≤ 2 ^ 31 - 1

/-- The ledger of an ACTIVE tenant counts `c kind` objects of each kind.  CQs
and PDs have no quota, so their counts are exact modulo the width only. -/
structure Exact (l : Ledger) (c : ResourceKind → Nat) : Prop where
  active : l.status = .active
  quota : SmallQuota l.quota
  qp : l.usage.qpCount.toInt = c .qp
  mr : l.usage.mrCount.toInt = c .mr
  cq : l.usage.cqCount = Int32.ofInt (c .cq)
  pd : l.usage.pdCount = Int32.ofInt (c .pd)

section Exact

variable {l l' : Ledger} {c : ResourceKind → Nat}

theorem Exact.toQp (h : Exact l c) : QpExact l (c .qp) :=
  ⟨h.active, h.quota.qp, h.qp⟩

theorem Exact.mr_lt_quota (h : Exact l c)
    (hquota : l.usage.mrCount.toUInt32 < l.quota.maxMrPerTenant) :
    c .mr < l.quota.maxMrPerTenant.toNat := by
  rw [UInt32.lt_iff_toNat_lt] at hquota
  have hval := toNat_toUInt32 (x := l.usage.mrCount) (by rw [h.mr]; omega)
  rw [h.mr] at hval
  omega

/-- Every outcome of a QP creation: one more exactly if there is a new QP. -/
theorem Exact.createQp {r : CreateQpResult} (h : Exact l c) (hout : CreateQpOutcome l r l') :
    Exact l' (Function.update c .qp (c .qp + if r.qp.isSome then 1 else 0)) := by
  have hqp := (h.toQp.createQp hout).1.qp
  cases hout with
  | refused _ _ => exact ⟨h.active, h.quota, hqp, h.mr, h.cq, h.pd⟩
  | overQuota _ _ _ =>
      rw [h.toQp.clampQp] at hqp ⊢
      exact ⟨h.active, h.quota, hqp, h.mr, h.cq, h.pd⟩
  | created _ _ _ =>
      rw [h.toQp.clampQp] at hqp ⊢
      exact ⟨h.active, h.quota, hqp, h.mr, h.cq, h.pd⟩
  | failed _ _ _ =>
      rw [h.toQp.clampQp] at hqp ⊢
      exact ⟨h.active, h.quota, hqp, h.mr, h.cq, h.pd⟩

/-- Counting a new MR below the quota. -/
theorem Exact.countMr (h : Exact l c) (hlt : c .mr < l.quota.maxMrPerTenant.toNat) :
    Exact (withUsage l (countDelta .mr 1 l.usage)) (Function.update c .mr (c .mr + 1)) := by
  have hroom := h.quota.mr
  have hmr : (l.usage.mrCount + 1).toInt = l.usage.mrCount.toInt + 1 :=
    toInt_add_one (by rw [h.mr]; omega)
  refine ⟨h.active, h.quota, h.qp, ?_, h.cq, h.pd⟩
  show (l.usage.mrCount + 1).toInt = ((c .mr + 1 : Nat) : Int)
  rw [hmr, h.mr]
  omega

theorem Exact.countCq (h : Exact l c) :
    Exact (withUsage l (countDelta .cq 1 l.usage)) (Function.update c .cq (c .cq + 1)) := by
  refine ⟨h.active, h.quota, h.qp, h.mr, ?_, h.pd⟩
  show l.usage.cqCount + 1 = Int32.ofInt ((c .cq + 1 : Nat) : Int)
  rw [h.cq, Int.natCast_succ, ofInt_add_one]

theorem Exact.countPd (h : Exact l c) :
    Exact (withUsage l (countDelta .pd 1 l.usage)) (Function.update c .pd (c .pd + 1)) := by
  refine ⟨h.active, h.quota, h.qp, h.mr, h.cq, ?_⟩
  show l.usage.pdCount + 1 = Int32.ofInt ((c .pd + 1 : Nat) : Int)
  rw [h.pd, Int.natCast_succ, ofInt_add_one]

/-- Counting an object that went away. -/
theorem Exact.uncount (h : Exact l c) (kind : ResourceKind) (hpos : 1 ≤ c kind) :
    Exact (withUsage l (countDelta kind (-1) l.usage))
      (Function.update c kind (c kind - 1)) := by
  have hqp := fun hpos : 1 ≤ c .qp => (h.toQp.uncount hpos).qp
  -- a fixed `-1` would be evaluated wherever the record is compared
  obtain ⟨delta, hdelta⟩ : ∃ delta : Int32, delta = -1 := ⟨_, rfl⟩
  rw [← hdelta] at hqp ⊢
  cases kind with
  | qp => exact ⟨h.active, h.quota, hqp hpos, h.mr, h.cq, h.pd⟩
  | mr =>
      have hmr : (l.usage.mrCount - 1).toInt = l.usage.mrCount.toInt - 1 :=
        toInt_sub_one (by rw [h.mr]; omega)
      refine ⟨h.active, h.quota, h.qp, ?_, h.cq, h.pd⟩
      show (l.usage.mrCount + delta).toInt = ((c .mr - 1 : Nat) : Int)
      rw [hdelta, ← Int32.sub_eq_add_neg, hmr, h.mr]
      omega
  | cq =>
      refine ⟨h.active, h.quota, h.qp, h.mr, ?_, h.pd⟩
      show l.usage.cqCount + delta = Int32.ofInt ((c .cq - 1 : Nat) : Int)
      rw [hdelta, h.cq, Int.natCast_pred_of_pos hpos, ofInt_sub_one]
  | pd =>
      refine ⟨h.active, h.quota, h.qp, h.mr, h.cq, ?_⟩
      show l.usage.pdCount + delta = Int32.ofInt ((c .pd - 1 : Nat) : Int)
      rw [hdelta, h.pd, Int.natCast_pred_of_pos hpos, ofInt_sub_one]

theorem Exact.setQuota (h : Exact l c) {quota : TenantQuota} (hquota : SmallQuota quota) :
    Exact { l with quota := quota } c :=
  ⟨h.active, hquota, h.qp, h.mr, h.cq, h.pd⟩

end Exact

/-! ## Exact totals -/

/-- Creations minus destructions is the number `n` of QPs, and `calls` bounds
the creations. -/
structure TotalsExact (u : TenantResourceUsage) (n calls : Nat) : Prop where
  balance : u.totalQpCreates.toNat = u.totalQpDestroys.toNat + n
  bound : u.totalQpCreates.toNat ≤ calls

theorem TotalsExact.createQp {l l' : Ledger} {c : ResourceKind → Nat} {r : CreateQpResult}
    {calls : Nat} (h : TotalsExact l.usage (c .qp) calls) (hexact : Exact l c)
    (hcalls : calls + 1 < 2 ^ 64) (hout : CreateQpOutcome l r l') :
    TotalsExact l'.usage (c .qp + if r.qp.isSome then 1 else 0) (calls + 1) := by
  obtain ⟨hbal, hbound⟩ := h
  have hadd : (l.usage.totalQpCreates + 1).toNat = l.usage.totalQpCreates.toNat + 1 :=
    toNat_add_one (by omega)
  cases hout with
  | refused _ hqp =>
      rw [hqp]
      exact ⟨hbal, by omega⟩
  | overQuota _ hqp _ =>
      rw [hqp, hexact.toQp.clampQp]
      exact ⟨hbal, Nat.le_succ_of_le hbound⟩
  | created _ hqp _ =>
      rw [hqp, hexact.toQp.clampQp]
      refine ⟨?_, ?_⟩
      · show (l.usage.totalQpCreates + 1).toNat = l.usage.totalQpDestroys.toNat + (c .qp + 1)
        omega
      · show (l.usage.totalQpCreates + 1).toNat ≤ calls + 1
        omega
  | failed _ hqp _ =>
      rw [hqp, hexact.toQp.clampQp]
      have hpos : 0 < l.usage.totalQpCreates + 1 := by
        rw [UInt64.lt_iff_toNat_lt, hadd]
        show 0 < l.usage.totalQpCreates.toNat + 1
        omega
      have hback : (rollbackQp (reserveQp l.usage)).totalQpCreates = l.usage.totalQpCreates := by
        show (if 0 < l.usage.totalQpCreates + 1 then l.usage.totalQpCreates + 1 - 1
          else l.usage.totalQpCreates + 1) = l.usage.totalQpCreates
        rw [if_pos hpos, UInt64.add_sub_cancel]
      refine ⟨?_, ?_⟩
      · show (rollbackQp (reserveQp l.usage)).totalQpCreates.toNat =
          l.usage.totalQpDestroys.toNat + (c .qp + 0)
        rw [hback]
        exact hbal
      · show (rollbackQp (reserveQp l.usage)).totalQpCreates.toNat ≤ calls + 1
        rw [hback]
        omega

theorem TotalsExact.uncountQp {u : TenantResourceUsage} {n calls : Nat}
    (h : TotalsExact u n calls) (hpos : 1 ≤ n) :
    TotalsExact (countDelta .qp (-1) u) (n - 1) calls := by
  obtain ⟨hbal, hbound⟩ := h
  have hlt : u.totalQpCreates.toNat < 2 ^ 64 := u.totalQpCreates.toNat_lt
  have hadd : (u.totalQpDestroys + 1).toNat = u.totalQpDestroys.toNat + 1 :=
    toNat_add_one (by omega)
  have hcreates : (countDelta .qp (-1) u).totalQpCreates = u.totalQpCreates := by
    simp [countDelta]
  have hdestroys : (countDelta .qp (-1) u).totalQpDestroys = u.totalQpDestroys + 1 := by
    simp [countDelta]
  refine ⟨?_, ?_⟩
  · rw [hcreates, hdestroys]
    omega
  · rw [hcreates]
    exact hbound

/-- The other kinds do not touch the totals. -/
theorem TotalsExact.countOther {u : TenantResourceUsage} {n calls : Nat} {kind : ResourceKind}
    {delta : Int32} (h : TotalsExact u n calls) (hkind : kind ≠ .qp) :
    TotalsExact (countDelta kind delta u) n calls := by
  cases kind with
  | qp => exact absurd rfl hkind
  | mr | cq | pd => exact ⟨h.balance, h.bound⟩

/-! ## One call, seen from the ledger -/

/-- Whether a call may take a unit of the QP quota. -/
def HookCall.createsQp : HookCall → Bool
  | .createQp .. => true
  | .createQpEx .. => true
  | _ => false

/-- The four ways a call moves the ledger of its tenant, with what it
reports. -/
inductive CallMove (l : Ledger) : HookCall → HookReport → Ledger → Prop
  | createQp {call : HookCall} {r : CreateQpResult} {l' : Ledger} : call.kind = .qp →
      call.createsQp = true → CreateQpOutcome l r l' →
      CallMove l call ⟨r.qp, none, r.invoked.isSome⟩ l'
  | regMr {call : HookCall} {object : Option Nat} {invoked : Bool} : call.kind = .mr →
      call.createsQp = false →
      (invoked = true → l.usage.mrCount.toUInt32 < l.quota.maxMrPerTenant) →
      (object.isSome → invoked) →
      CallMove l call ⟨object, none, invoked⟩
        (if object.isSome then withUsage l (countDelta .mr 1 l.usage) else l)
  | create {call : HookCall} {object : Option Nat} {invoked : Bool} :
      call.kind = .cq ∨ call.kind = .pd → call.createsQp = false →
      CallMove l call ⟨object, none, invoked⟩
        (if object.isSome then withUsage l (countDelta call.kind 1 l.usage) else l)
  | destroy {call : HookCall} {object : Nat} {r : DestroyResult} : call.createsQp = false →
      CallMove l call (reportDestroy object r)
        (if r.rc = 0 then withUsage l (countDelta call.kind (-1) l.usage) else l)

/-- The number of objects of the call's kind afterwards, from the number
before. -/
def HookReport.recount (r : HookReport) (n : Nat) : Nat :=
  match r.created, r.destroyed with
  | some _, _ => n + 1
  | none, some _ => n - 1
  | none, none => n

section Moves

variable {l l' : Ledger} {c : ResourceKind → Nat} {call : HookCall} {r : HookReport}

theorem CallMove.exact (h : Exact l c) (hmove : CallMove l call r l')
    (hdestroyed : r.destroyed.isSome → 1 ≤ c call.kind) :
    Exact l' (Function.update c call.kind (r.recount (c call.kind))) := by
  cases hmove with
  | @createQp r _ hkind _ hout =>
      have hexact := h.createQp hout
      rw [hkind]
      cases hqp : r.qp with
      | none | some => simpa [HookReport.recount, hqp] using hexact
  | @regMr object invoked hkind _ hbelow hinv =>
      rw [hkind]
      cases object with
      | none => simpa [HookReport.recount] using h
      | some mr => exact h.countMr (h.mr_lt_quota (hbelow (hinv rfl)))
  | @create object _ hkind _ =>
      cases object with
      | none => simpa [HookReport.recount] using h
      | some o =>
          rcases hkind with hkind | hkind
          · rw [hkind]
            exact h.countCq
          · rw [hkind]
            exact h.countPd
  | @destroy object r _ =>
      by_cases hrc : r.rc = 0
      · have hpos : 1 ≤ c call.kind := hdestroyed (by simp [reportDestroy, hrc])
        rw [if_pos hrc]
        simpa [HookReport.recount, reportDestroy, hrc] using h.uncount call.kind hpos
      · rw [if_neg hrc]
        simpa [HookReport.recount, reportDestroy, hrc] using h

/-- The creating verbs that have a quota are invoked below it. -/
theorem CallMove.below_quota (h : Exact l c) (hmove : CallMove l call r l')
    (hverb : r.creatingVerb = true) :
    (call.kind = .qp → c .qp < l.quota.maxQpPerTenant.toNat) ∧
      (call.kind = .mr → c .mr < l.quota.maxMrPerTenant.toNat) := by
  cases hmove with
  | createQp hkind _ hout =>
      refine ⟨fun _ => (h.toQp.createQp hout).2 hverb, ?_⟩
      intro hmr
      rw [hkind] at hmr
      cases hmr
  | regMr hkind _ hbelow _ =>
      refine ⟨?_, fun _ => h.mr_lt_quota (hbelow hverb)⟩
      intro hqp
      rw [hkind] at hqp
      cases hqp
  | create hkind _ =>
      rcases hkind with hkind | hkind
      · simp [hkind]
      · simp [hkind]
  | destroy _ => simp [reportDestroy] at hverb

theorem CallMove.totals {calls : Nat} (hexact : Exact l c) (hmove : CallMove l call r l')
    (hdestroyed : r.destroyed.isSome → 1 ≤ c call.kind)
    (hcalls : calls + (if call.createsQp then 1 else 0) < 2 ^ 64)
    (h : TotalsExact l.usage (c .qp) calls) :
    TotalsExact l'.usage (Function.update c call.kind (r.recount (c call.kind)) .qp)
      (calls + if call.createsQp then 1 else 0) := by
  cases hmove with
  | @createQp r _ hkind hcreates hout =>
      rw [hcreates] at hcalls ⊢
      have htotals := h.createQp hexact hcalls hout
      rw [hkind, Function.update_self]
      cases hqp : r.qp with
      | none | some => simpa [HookReport.recount, hqp] using htotals
  | @regMr object _ hkind hcreates _ _ =>
      rw [hcreates, hkind, Function.update_of_ne (by decide)]
      cases object with
      | none => exact h
      | some mr => exact h.countOther (by decide : ResourceKind.mr ≠ .qp)
  | @create object _ hkind hcreates =>
      have hne : call.kind ≠ .qp := by
        rcases hkind with hkind | hkind
        · rw [hkind]; decide
        · rw [hkind]; decide
      rw [hcreates, Function.update_of_ne hne.symm]
      cases object with
      | none => exact h
      | some o => exact h.countOther hne
  | @destroy object r hcreates =>
      rw [hcreates]
      by_cases hrc : r.rc = 0
      · rw [if_pos hrc]
        have hpos : 1 ≤ c call.kind := hdestroyed (by simp [reportDestroy, hrc])
        by_cases hkind : call.kind = .qp
        · rw [hkind] at hpos ⊢
          rw [Function.update_self]
          simpa [HookReport.recount, reportDestroy, hrc] using h.uncountQp hpos
        · rw [Function.update_of_ne (Ne.symm hkind)]
          exact h.countOther hkind
      · rw [if_neg hrc]
        have hsame : Function.update c call.kind
            ((reportDestroy object r).recount (c call.kind)) = c := by
          simp [HookReport.recount, reportDestroy, hrc]
        rw [hsame]
        exact h

end Moves

/-! ## The world of one tenant -/

section World

variable {ι : Type}

/-- Any number of processes, the two segments, and the objects that exist. -/
structure HookWorld (ι : Type) where
  procs : ι → Process
  shm : SharedMemoryData
  tenant : TenantSharedMemory
  live : ResourceKind → Finset (ι × Nat)

/-- What process `i` sees. -/
def HookWorld.view (w : HookWorld ι) (i : ι) : View := ⟨w.procs i, w.shm, w.tenant⟩

/-- Interception is on when the call gets past the initialization, and the
process resolves to `tenantId`. -/
def ResolvesTo (tenantId : UInt32) (env : HookEnv) (v : View) : Prop :=
  rdmaInterceptIsEnabled v.proc = true ∧ (getCurrentTenantId env v).1 = tenantId

/-- The calls of the runs below: the caller resolves to the tenant, a new
object is not one that exists already, and an object is destroyed by its
process while it exists. -/
def Admissible (tenantId : UInt32) (w : HookWorld ι) (i : ι) : HookCall → Prop
  | .createQp env real _ =>
      ResolvesTo tenantId env (hooksInitOnce env (w.view i)) ∧
        ∀ attr qp, real attr = some qp → (i, qp) ∉ w.live .qp
  | .createQpEx env real _ _ =>
      ResolvesTo tenantId env (w.view i) ∧
        ∀ original attr qp, real original attr = some qp → (i, qp) ∉ w.live .qp
  | .destroyQp env qp _ =>
      ResolvesTo tenantId env (hooksInitOnce env (w.view i)) ∧ (i, qp) ∈ w.live .qp
  | .regMr env _ real =>
      ResolvesTo tenantId env (hooksInitOnce env (w.view i)) ∧
        ∀ mr, real = some mr → (i, mr) ∉ w.live .mr
  | .deregMr env mr _ _ =>
      ResolvesTo tenantId env (hooksInitOnce env (w.view i)) ∧ (i, mr) ∈ w.live .mr
  | .createCq env real =>
      ResolvesTo tenantId env (hooksInitOnce env (w.view i)) ∧
        ∀ cq, real = some cq → (i, cq) ∉ w.live .cq
  | .destroyCq env cq _ =>
      ResolvesTo tenantId env (hooksInitOnce env (w.view i)) ∧ (i, cq) ∈ w.live .cq
  | .allocPd env real =>
      ResolvesTo tenantId env (hooksInitOnce env (w.view i)) ∧
        ∀ pd, real = some pd → (i, pd) ∉ w.live .pd
  | .deallocPd env pd _ =>
      ResolvesTo tenantId env (hooksInitOnce env (w.view i)) ∧ (i, pd) ∈ w.live .pd

/-! ## Every admissible call is one of the moves -/

variable {tenantId : UInt32} {t : TenantIdx} {w : HookWorld ι} {i : ι} {call : HookCall}

theorem Admissible.move (hne : tenantId ≠ 0) (ht : tenantIdx? tenantId = some t)
    (hact : (ledger w.tenant t).status = .active) (hadm : Admissible tenantId w i call) :
    CallMove (ledger w.tenant t) call (call.exec (w.view i)).1
      (ledger (call.exec (w.view i)).2.tenant t) := by
  have hact' : (ledger (w.view i).tenant t).status = .active := hact
  cases call with
  | createQp env real attr =>
      rw [← ledger_hooksInitOnce env (w.view i)] at hact'
      have hout := (ibvCreateQp_cases env real attr (w.view i)).ledger_outcome hne ht hadm.1.1
        hadm.1.2 hact'
      rw [ledger_hooksInitOnce] at hout
      exact .createQp rfl rfl hout
  | createQpEx env real context attr =>
      have hcases := createQpExWrapper_cases env real context attr (w.view i)
      exact .createQp rfl rfl (hcases.ledger_outcome hne ht hadm.1.1 hadm.1.2 hact')
  | destroyQp env qp real =>
      have hledger := recount_at (ibvDestroyQp_ledgers real hadm.1.1) hadm.1.2 hne ht hact'
      simp only [HookCall.exec, hledger]
      exact .destroy rfl
  | regMr env length real =>
      obtain ⟨hbelow, hinv, hledger⟩ :=
        ibvRegMr_outcome length real hne ht hadm.1.1 hadm.1.2 hact'
      simp only [HookCall.exec, hledger]
      exact .regMr rfl rfl hbelow hinv
  | deregMr env mr length real =>
      have hledger := recount_at (ibvDeregMr_ledgers length real hadm.1.1) hadm.1.2 hne ht hact'
      simp only [HookCall.exec, hledger]
      exact .destroy rfl
  | createCq env real =>
      have hledger := recount_at (createCounted_ledgers .cq RealVerbs.createCq real hadm.1.1)
        hadm.1.2 hne ht hact'
      simp only [HookCall.exec, ibvCreateCq, hledger]
      exact .create (.inl rfl) rfl
  | destroyCq env cq real =>
      have hledger := recount_at (destroyCounted_ledgers .cq RealVerbs.destroyCq real hadm.1.1)
        hadm.1.2 hne ht hact'
      simp only [HookCall.exec, ibvDestroyCq, hledger]
      exact .destroy rfl
  | allocPd env real =>
      have hledger := recount_at (createCounted_ledgers .pd RealVerbs.allocPd real hadm.1.1)
        hadm.1.2 hne ht hact'
      simp only [HookCall.exec, ibvAllocPd, hledger]
      exact .create (.inr rfl) rfl
  | deallocPd env pd real =>
      have hledger := recount_at (destroyCounted_ledgers .pd RealVerbs.deallocPd real hadm.1.1)
        hadm.1.2 hne ht hact'
      simp only [HookCall.exec, ibvDeallocPd, hledger]
      exact .destroy rfl

/-- A created object is new. -/
theorem Admissible.fresh (hadm : Admissible tenantId w i call) {object : Nat}
    (h : (call.exec (w.view i)).1.created = some object) : (i, object) ∉ w.live call.kind := by
  cases call with
  | createQp env real attr =>
      obtain ⟨a, ha⟩ := ibvCreateQp_qp h
      exact hadm.2 a object ha
  | createQpEx env real context attr =>
      obtain ⟨_, a, hverb, ha⟩ := (createQpExWrapper_cases ..).qp h
      obtain ⟨original, _, rfl⟩ := Option.map_eq_some_iff.mp hverb
      exact hadm.2 original a object ha
  | regMr env length real => exact hadm.2 object (ibvRegMr_object h)
  | createCq | allocPd => exact hadm.2 object (createCounted_object h)
  | destroyQp | deregMr | destroyCq | deallocPd => cases h

private theorem eq_of_reportDestroy {object o : Nat} {r : DestroyResult}
    (h : (reportDestroy object r).destroyed = some o) : object = o := by
  unfold reportDestroy at h
  simp only at h
  split at h
  · exact Option.some.inj h
  · cases h

/-- A destroyed object existed. -/
theorem Admissible.existing (hadm : Admissible tenantId w i call) {object : Nat}
    (h : (call.exec (w.view i)).1.destroyed = some object) : (i, object) ∈ w.live call.kind := by
  cases call with
  | createQp | createQpEx | regMr | createCq | allocPd => cases h
  | destroyQp | deregMr | destroyCq | deallocPd => exact eq_of_reportDestroy h ▸ hadm.2

/-- The number of existing objects, by kind. -/
def HookWorld.counts (w : HookWorld ι) : ResourceKind → Nat := fun kind => (w.live kind).card

theorem Admissible.destroyed_pos (hadm : Admissible tenantId w i call)
    (h : (call.exec (w.view i)).1.destroyed.isSome) : 1 ≤ w.counts call.kind := by
  obtain ⟨o, ho⟩ := Option.isSome_iff_exists.mp h
  exact Finset.card_pos.mpr ⟨(i, o), hadm.existing ho⟩

/-! ## Steps -/

variable [DecidableEq ι]

/-- The objects of one kind after a call of process `i`. -/
def settleLive (i : ι) (r : HookReport) (objects : Finset (ι × Nat)) : Finset (ι × Nat) :=
  match r.created, r.destroyed with
  | some object, _ => insert (i, object) objects
  | none, some object => objects.erase (i, object)
  | none, none => objects

/-- Process `i` makes a call. -/
def HookWorld.afterCall (w : HookWorld ι) (i : ι) (call : HookCall) : HookWorld ι :=
  let r := call.exec (w.view i)
  { procs := Function.update w.procs i r.2.proc
    shm := r.2.shm
    tenant := r.2.tenant
    live := Function.update w.live call.kind (settleLive i r.1 (w.live call.kind)) }

theorem mem_settleLive {r : HookReport} {objects : Finset (ι × Nat)} {x : ι × Nat}
    (h : x ∈ settleLive i r objects) :
    x ∈ objects ∨ (x.1 = i ∧ r.created.isSome) := by
  unfold settleLive at h
  cases hc : r.created with
  | some o =>
      rw [hc] at h
      rcases Finset.mem_insert.mp h with rfl | hmem
      · exact .inr ⟨rfl, rfl⟩
      · exact .inl hmem
  | none =>
      rw [hc] at h
      cases hd : r.destroyed with
      | some o =>
          rw [hd] at h
          exact .inl (Finset.mem_of_mem_erase h)
      | none =>
          rw [hd] at h
          exact .inl h

/-- An object that exists after a call existed before or was created by it. -/
theorem mem_live_afterCall {kind : ResourceKind} {x : ι × Nat}
    (h : x ∈ (w.afterCall i call).live kind) :
    x ∈ w.live kind ∨ (x.1 = i ∧ (call.exec (w.view i)).1.created.isSome) := by
  change x ∈ Function.update w.live call.kind _ kind at h
  by_cases hkind : kind = call.kind
  · rw [hkind, Function.update_self] at h
    rw [hkind]
    exact mem_settleLive h
  · rw [Function.update_of_ne hkind] at h
    exact .inl h

/-- The set of objects changes in size as the report says. -/
theorem card_settleLive {r : HookReport} {objects : Finset (ι × Nat)}
    (hfresh : ∀ o, r.created = some o → (i, o) ∉ objects)
    (hexisting : ∀ o, r.destroyed = some o → (i, o) ∈ objects) :
    (settleLive i r objects).card = r.recount objects.card := by
  unfold settleLive HookReport.recount
  cases hc : r.created with
  | some o => exact Finset.card_insert_of_notMem (hfresh o hc)
  | none =>
      cases hd : r.destroyed with
      | some o => exact Finset.card_erase_of_mem (hexisting o hd)
      | none => rfl

theorem Admissible.counts (hadm : Admissible tenantId w i call) :
    (w.afterCall i call).counts = Function.update w.counts call.kind
      ((call.exec (w.view i)).1.recount (w.counts call.kind)) := by
  have hcard := card_settleLive (i := i) (fun _ => hadm.fresh) (fun _ => hadm.existing)
  funext kind
  by_cases hkind : kind = call.kind
  · subst hkind
    simpa [HookWorld.counts, HookWorld.afterCall] using hcard
  · simp [HookWorld.counts, HookWorld.afterCall, hkind]

/-- A hook call of some process, or a new quota. -/
inductive TenantStep (ι : Type) where
  | hook (i : ι) (call : HookCall)
  | updateQuota (quota : TenantQuota)

/-- The steps of a run of tenant `tenantId`. -/
inductive AccountStep (tenantId : UInt32) : HookWorld ι → TenantStep ι → HookWorld ι → Prop
  | hook {w : HookWorld ι} {i : ι} {call : HookCall} : Admissible tenantId w i call →
      AccountStep tenantId w (.hook i call) (w.afterCall i call)
  | updateQuota {w : HookWorld ι} {quota : TenantQuota} : SmallQuota quota →
      AccountStep tenantId w (.updateQuota quota)
        { w with tenant := (tenantUpdateQuota tenantId quota w.tenant).2 }

/-! ## Runs -/

/-- The number of QP creations called in a run. -/
def qpCreations (steps : List (TenantStep ι)) : Nat :=
  steps.countP fun
    | .hook _ call => call.createsQp
    | .updateQuota _ => false

theorem AccountStep.exact {a : TenantStep ι} {w' : HookWorld ι} (hne : tenantId ≠ 0)
    (ht : tenantIdx? tenantId = some t) (h : Exact (ledger w.tenant t) w.counts)
    (hstep : AccountStep tenantId w a w') : Exact (ledger w'.tenant t) w'.counts := by
  cases hstep with
  | hook hadm =>
      rw [hadm.counts]
      exact (hadm.move hne ht h.active).exact h hadm.destroyed_pos
  | updateQuota hsmall =>
      rw [ledger_updateQuota ht (by rw [h.active]; decide)]
      exact h.setQuota hsmall

theorem AccountStep.totals {steps : List (TenantStep ι)} {a : TenantStep ι}
    {w' : HookWorld ι} (hne : tenantId ≠ 0) (ht : tenantIdx? tenantId = some t)
    (hexact : Exact (ledger w.tenant t) w.counts)
    (h : TotalsExact (ledger w.tenant t).usage (w.counts .qp) (qpCreations steps))
    (hbound : qpCreations (steps ++ [a]) < 2 ^ 64) (hstep : AccountStep tenantId w a w') :
    TotalsExact (ledger w'.tenant t).usage (w'.counts .qp) (qpCreations (steps ++ [a])) := by
  cases hstep with
  | @hook i call hadm =>
      have hcount : qpCreations (steps ++ [TenantStep.hook i call]) =
          qpCreations steps + if call.createsQp then 1 else 0 := by
        simp [qpCreations]
      rw [hcount] at hbound ⊢
      rw [hadm.counts]
      exact (hadm.move hne ht hexact.active).totals hexact hadm.destroyed_pos hbound h
  | @updateQuota quota _ =>
      have hcount : qpCreations (steps ++ [TenantStep.updateQuota quota]) =
          qpCreations steps := by
        simp [qpCreations]
      rw [hcount, ledger_updateQuota ht (by rw [hexact.active]; decide)]
      exact h

/-- The invariant of a run that starts with a fresh tenant and no objects. -/
theorem accountRun_exact {w₀ : HookWorld ι} {steps : List (TenantStep ι)} {quota : TenantQuota}
    (hfresh : FreshTenant tenantId t quota w₀.tenant) (hquota : SmallQuota quota)
    (hlive : ∀ kind, w₀.live kind = ∅) (hrun : Run (AccountStep tenantId) w₀ steps w) :
    Exact (ledger w.tenant t) w.counts ∧
      (qpCreations steps < 2 ^ 64 →
        TotalsExact (ledger w.tenant t).usage (w.counts .qp) (qpCreations steps)) := by
  have hzero : ∀ kind, w₀.counts kind = 0 := by
    intro kind
    rw [HookWorld.counts, hlive kind, Finset.card_empty]
  refine Run.history (P := fun steps w => Exact (ledger w.tenant t) w.counts ∧
    (qpCreations steps < 2 ^ 64 →
      TotalsExact (ledger w.tenant t).usage (w.counts .qp) (qpCreations steps))) ?_ ?_ hrun
  · rw [hfresh.ledger_eq]
    refine ⟨⟨rfl, hquota, ?_, ?_, ?_, ?_⟩, fun _ => ⟨?_, ?_⟩⟩
    · rw [hzero]; rfl
    · rw [hzero]; rfl
    · rw [hzero]; rfl
    · rw [hzero]; rfl
    · rw [hzero]; rfl
    · exact Nat.le_refl 0
  · rintro steps a w₁ w₂ ⟨hexact, htotals⟩ hstep
    refine ⟨hstep.exact hfresh.ne_zero hfresh.idx hexact, ?_⟩
    intro hbound
    have hprefix : qpCreations steps ≤ qpCreations (steps ++ [a]) := by
      simp [qpCreations]
    exact hstep.totals hfresh.ne_zero hfresh.idx hexact (htotals (by omega)) hbound

end World

/-! ## One process that creates CQs -/

/-- Tenant 1 with the one process 100, and nothing created yet. -/
def soloWorld (quota : TenantQuota) : HookWorld Unit where
  procs := fun _ => settledProcess 100
  shm := SharedMemory.zeroed
  tenant := soloTenant 100 quota
  live := fun _ => ∅

/-- The process creates CQ number `k`. -/
def createCqStep (k : Nat) : TenantStep Unit := .hook () (.createCq quietEnv (some k))

theorem smallQuota_default : SmallQuota defaultQuota := ⟨by decide, by decide⟩

/-- The process is settled, and bound to tenant `n`. -/
structure SoloBound (n : UInt32) (w : HookWorld Unit) : Prop where
  proc : w.procs () = settledProcess 100
  get : tenantGetProcessTenant 100 w.tenant = some n

namespace SoloBound

variable {n : UInt32} {w : HookWorld Unit}

theorem settled (h : SoloBound n w) : Settled quietEnv (w.view ()).proc := by
  show Settled quietEnv (w.procs ())
  rw [h.proc]
  exact settledProcess_settled 100

theorem enabled (h : SoloBound n w) : rdmaInterceptIsEnabled (w.view ()).proc = true :=
  congrArg rdmaInterceptIsEnabled h.proc

theorem bound (h : SoloBound n w) :
    tenantGetProcessTenant (w.view ()).proc.pid (w.view ()).tenant = some n := by
  rw [show (w.view ()).proc.pid = 100 from congrArg Process.pid h.proc]
  exact h.get

theorem resolves (h : SoloBound n w) :
    ResolvesTo n quietEnv (hooksInitOnce quietEnv (w.view ())) := by
  rw [h.settled.hooksInitOnce]
  exact ⟨h.enabled, by rw [h.settled.resolved h.bound]⟩

/-- Creating a CQ counts it and changes nothing else. -/
theorem createCq (h : SoloBound n w) (hne : n ≠ 0) (k : Nat) :
    (HookCall.createCq quietEnv (some k)).exec (w.view ()) =
      (⟨some k, none, true⟩,
        ⟨w.procs (), w.shm, rewriteUsage n (countDelta .cq 1) w.tenant⟩) := by
  have hfound : (w.view ()).proc.realVerbs.createCq = true :=
    congrArg (fun p => p.realVerbs.createCq) h.proc
  simp only [HookCall.exec, ibvCreateCq,
    h.settled.createCounted h.enabled h.bound hne .cq hfound k]
  rfl

theorem destroyCq (h : SoloBound n w) (hne : n ≠ 0) (k : Nat) :
    (HookCall.destroyCq quietEnv k 0).exec (w.view ()) =
      (⟨none, some k, false⟩,
        ⟨w.procs (), w.shm, rewriteUsage n (countDelta .cq (-1)) w.tenant⟩) := by
  have hfound : (w.view ()).proc.realVerbs.destroyCq = true :=
    congrArg (fun p => p.realVerbs.destroyCq) h.proc
  simp only [HookCall.exec, ibvDestroyCq,
    h.settled.destroyCounted h.enabled h.bound hne .cq hfound]
  rfl

theorem afterCreateCq (h : SoloBound n w) (hne : n ≠ 0) (k : Nat) :
    SoloBound n (w.afterCall () (.createCq quietEnv (some k))) := by
  constructor
  · simp [HookWorld.afterCall, h.createCq hne, h.proc]
  · simp only [HookWorld.afterCall, h.createCq hne]
    rw [tenantGetProcessTenant_of_mappings (rewriteUsage_frame _ _ _)]
    exact h.get

end SoloBound

theorem createCq_run (n : Nat) : ∃ w : HookWorld Unit,
    Run (AccountStep 1) (soloWorld defaultQuota) ((List.range n).map createCqStep) w ∧
      SoloBound 1 w ∧ w.live .cq = (Finset.range n).image (Prod.mk ()) := by
  induction n with
  | zero => exact ⟨soloWorld defaultQuota, .start, ⟨rfl, soloTenant_get (by decide) _⟩, rfl⟩
  | succ n ih =>
      obtain ⟨w, hrun, hbound, hlive⟩ := ih
      have hadm : Admissible 1 w () (.createCq quietEnv (some n)) := by
        refine ⟨hbound.resolves, ?_⟩
        rintro cq hcq
        obtain rfl := Option.some.inj hcq
        rw [hlive]
        simp
      rw [List.range_succ, List.map_append]
      refine ⟨_, .snoc hrun (.hook hadm), hbound.afterCreateCq (by decide) n, ?_⟩
      simp only [HookWorld.afterCall, hbound.createCq (by decide), HookCall.kind,
        Function.update_self, settleLive]
      rw [hlive, Finset.range_add_one, Finset.image_insert]

theorem createCq_card {n : Nat} {w : HookWorld Unit}
    (hlive : w.live .cq = (Finset.range n).image (Prod.mk ())) : (w.live .cq).card = n := by
  rw [hlive, Finset.card_image_of_injective _ (Prod.mk_right_injective ()), Finset.card_range]

/-! ## The result -/

/-- **The hooks account exactly.**  In every state of every run: QPs and MRs
are counted exactly; CQs and PDs as long as fewer than `2 ^ 31` exist; the
totals balance as long as fewer than `2 ^ 64` QP creations were called; and
the next call invokes a creating verb with a quota only below that quota. -/
theorem hooks_account_exactly {ι : Type} [DecidableEq ι] {tenantId : UInt32} {t : TenantIdx}
    {w₀ w : HookWorld ι} {steps : List (TenantStep ι)} {quota : TenantQuota}
    (hfresh : FreshTenant tenantId t quota w₀.tenant)
    (hquota : SmallQuota quota) (hlive : ∀ kind, w₀.live kind = ∅)
    (hrun : Run (AccountStep tenantId) w₀ steps w) :
    let u := (w.tenant.tenants t).usage
    u.qpCount.toInt = (w.live .qp).card ∧
    u.mrCount.toInt = (w.live .mr).card ∧
    ((w.live .cq).card < 2 ^ 31 → u.cqCount.toInt = (w.live .cq).card) ∧
    ((w.live .pd).card < 2 ^ 31 → u.pdCount.toInt = (w.live .pd).card) ∧
    (qpCreations steps < 2 ^ 64 →
      (u.totalQpCreates - u.totalQpDestroys).toNat = (w.live .qp).card) ∧
    ∀ i call, Admissible tenantId w i call → (call.exec (w.view i)).1.creatingVerb = true →
      (call.kind = .qp →
        (w.live .qp).card < (w.tenant.tenants t).quota.maxQpPerTenant.toNat) ∧
      (call.kind = .mr →
        (w.live .mr).card < (w.tenant.tenants t).quota.maxMrPerTenant.toNat) := by
  intro u
  obtain ⟨hexact, htotals⟩ := accountRun_exact hfresh hquota hlive hrun
  refine ⟨hexact.qp, hexact.mr, ?_, ?_, ?_, ?_⟩
  · intro hlt
    have hcq : u.cqCount = Int32.ofInt (w.live .cq).card := hexact.cq
    rw [hcq, Int32.toInt_ofInt_of_le (by omega) (by omega)]
  · intro hlt
    have hpd : u.pdCount = Int32.ofInt (w.live .pd).card := hexact.pd
    rw [hpd, Int32.toInt_ofInt_of_le (by omega) (by omega)]
  · intro hbound
    have hbal : u.totalQpCreates.toNat = u.totalQpDestroys.toNat + (w.live .qp).card :=
      (htotals hbound).balance
    have hle : u.totalQpDestroys ≤ u.totalQpCreates := by
      rw [UInt64.le_iff_toNat_le]
      omega
    rw [UInt64.toNat_sub_of_le _ _ hle]
    omega
  · intro i call hadm hverb
    exact (hadm.move hfresh.ne_zero hfresh.idx hexact.active).below_quota hexact hverb

/-- Of two CQs one is destroyed, and the quota is set anew. -/
theorem hooks_account_returned_cq : ∃ w : HookWorld Unit,
    Run (AccountStep 1) (soloWorld defaultQuota)
        [createCqStep 0, createCqStep 1, .hook () (.destroyCq quietEnv 0 0),
          .updateQuota defaultQuota] w ∧
      (w.live .cq).card = 1 ∧ (w.tenant.tenants 1).usage.cqCount.toInt = 1 := by
  obtain ⟨w, hrun, hbound, hlive⟩ := createCq_run 2
  have hadm : Admissible 1 w () (.destroyCq quietEnv 0 0) := by
    refine ⟨hbound.resolves, ?_⟩
    rw [hlive]
    decide
  have hdestroyed := (hrun.snoc (.hook hadm)).snoc (.updateQuota smallQuota_default)
  have hcard : ((w.afterCall () (.destroyCq quietEnv 0 0)).live .cq).card = 1 := by
    simp only [HookWorld.afterCall, hbound.destroyCq (by decide), HookCall.kind,
      Function.update_self, settleLive]
    rw [hlive]
    rfl
  have hall := hooks_account_exactly (soloTenant_fresh (by decide) defaultQuota)
    smallQuota_default (fun _ => rfl) hdestroyed
  refine ⟨_, hdestroyed, hcard, ?_⟩
  rw [hall.2.2.1 (by rw [hcard]; decide), hcard]
  rfl

/-- After `2 ^ 31` CQs the count of an ACTIVE tenant is negative. -/
theorem cqCount_overflows :
    FreshTenant 1 1 defaultQuota (soloWorld defaultQuota).tenant ∧ SmallQuota defaultQuota ∧
      (∀ kind, (soloWorld defaultQuota).live kind = ∅) ∧
      ∃ w : HookWorld Unit,
        Run (AccountStep 1) (soloWorld defaultQuota)
          ((List.range (2 ^ 31)).map createCqStep) w ∧
        (w.live .cq).card = 2 ^ 31 ∧ (w.tenant.tenants 1).usage.cqCount.toInt = -2 ^ 31 := by
  have hfresh := soloTenant_fresh (by decide : (100 : Int) ≠ 0) defaultQuota
  refine ⟨hfresh, smallQuota_default, fun _ => rfl, ?_⟩
  obtain ⟨w, hrun, _, hlive⟩ := createCq_run (2 ^ 31)
  have hcard := createCq_card hlive
  have hexact := (accountRun_exact hfresh smallQuota_default (fun _ => rfl) hrun).1
  have hcq : (w.tenant.tenants 1).usage.cqCount = Int32.ofInt ((w.live .cq).card : Nat) :=
    hexact.cq
  refine ⟨w, hrun, hcard, ?_⟩
  rw [hcq, hcard]
  decide

end MtRdma.Ports.RdmaHooks
