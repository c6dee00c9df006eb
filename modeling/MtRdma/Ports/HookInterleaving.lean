import MtRdma.Verified.Interleaving
import MtRdma.Ports.QpLedger
import MtRdma.Ports.HookFrame

/-!
# Hooks of many processes at once

The tenant lock is held for one access to the tenant store at a time.  The
reservation of `tenant_try_allocate_qp` is one such access.  Every other
change of a usage record is two: the record is copied out, and later the
changed copy is written back, over whatever other processes have stored in
between.  Here a hook is cut at these accesses and at the real verb, and the
pieces of any number of hooks interleave.

Where every record that is written back is still the one that was copied out,
the reservation keeps the quota.  An interleaving that loses an update does
not.
-/

namespace MtRdma.Ports.HookInterleaving

open Verified.Runs
open Verified.Interleaving
open SharedMemoryTenant
open RdmaHooks

/-! ## The pieces of a hook -/

/-- A change of the usage record that a hook has to make after its verb: the
roll-back of a failed QP creation, the count of a destroyed QP, or the count
of another kind. -/
inductive Change where
  | rollback
  | destroyed
  | counted (kind : { kind : ResourceKind // kind ≠ .qp }) (delta : Int32)

def Change.apply : Change → TenantResourceUsage → TenantResourceUsage
  | .rollback => rollbackQp
  | .destroyed => countDelta .qp (-1)
  | .counted kind delta => countDelta kind delta

/-- Where a caller is: in no hook, between reservation and verb, before the
copy of the usage record, or with the copy in hand. -/
inductive Pc where
  | idle
  | reserved
  | settling (change : Change)
  | writing (change : Change) (copy : TenantResourceUsage)

/-- The tenant store, and the QPs that exist. -/
structure Shared where
  tenant : TenantSharedMemory
  live : Finset Nat

/-- The pieces.  A real verb that creates answers with the new object or
fails; one that destroys is listed where it succeeds, since a hook whose verb
fails to destroy does nothing. -/
inductive Action where
  | tryAllocate
  | createQp (answer : Option Nat)
  | destroyQp (qp : Nat)
  | createOther (kind : { kind : ResourceKind // kind ≠ .qp })
  | destroyOther (kind : { kind : ResourceKind // kind ≠ .qp })
  | getUsage
  | updateUsage

/-- One piece, performed by a caller of tenant `tenantId`. -/
def hookStep (tenantId : UInt32) : Pc × Shared → Action → Option (Pc × Shared)
  | (.idle, s), .tryAllocate =>
      let tried := tenantTryAllocateQp tenantId s.tenant
      some (if tried.1 then .reserved else .idle, { s with tenant := tried.2 })
  | (.reserved, s), .createQp none => some (.settling .rollback, s)
  | (.reserved, s), .createQp (some qp) =>
      if qp ∈ s.live then none else some (.idle, { s with live := insert qp s.live })
  | (.idle, s), .destroyQp qp =>
      if qp ∈ s.live then some (.settling .destroyed, { s with live := s.live.erase qp })
      else none
  | (.idle, s), .createOther kind => some (.settling (.counted kind 1), s)
  | (.idle, s), .destroyOther kind => some (.settling (.counted kind (-1)), s)
  | (.settling change, s), .getUsage =>
      match tenantGetResourceUsage tenantId s.tenant with
      | none => some (.idle, s)
      | some usage => some (.writing change usage, s)
  | (.writing change copy, s), .updateUsage =>
      some (.idle,
        { s with tenant := (tenantUpdateResourceUsage tenantId (change.apply copy) s.tenant).2 })
  | _, _ => none

/-! ## A hook that nobody disturbs -/

/-- Copying out and writing back at once is the rewrite of the sequential
hooks. -/
theorem settle_alone (tenantId : UInt32) (change : Change) (s : Shared) :
    Alone (hookStep tenantId) (.settling change, s)
      (.idle, { s with tenant := rewriteUsage tenantId change.apply s.tenant }) := by
  unfold rewriteUsage
  cases hget : tenantGetResourceUsage tenantId s.tenant with
  | none => exact .cons (a := .getUsage) (by simp [hookStep, hget]) (.refl _)
  | some usage =>
      have hcopy : hookStep tenantId (.settling change, s) .getUsage =
          some (.writing change usage, s) := by simp [hookStep, hget]
      exact .cons hcopy (.cons (a := .updateUsage) rfl (.refl _))

/-- The live QPs after a creation that returned `qp`. -/
def liveAfter (live : Finset Nat) : Option Nat → Finset Nat
  | none => live
  | some qp => insert qp live

/-- **A creation alone is the sequential creation.**  For a process that
resolves to `tenantId`, some pieces lead from the resolved store to the store
and the answer of the hook. -/
theorem createForTenant_alone {tenantId : UInt32} (hne : tenantId ≠ 0) {env : HookEnv} {v : View}
    (hres : (getCurrentTenantId env v).1 = tenantId) (real : QpInitAttr → Option Nat)
    (attr : QpInitAttr) {live : Finset Nat}
    (hfresh : ∀ attr qp, real attr = some qp → qp ∉ live) :
    Alone (hookStep tenantId) (.idle, ⟨(getCurrentTenantId env v).2.tenant, live⟩)
      (.idle, ⟨(createForTenant env real attr v).2.tenant,
        liveAfter live (createForTenant env real attr v).1.qp⟩) := by
  have hbound : (getCurrentTenantId env v).1 ≠ 0 := hres ▸ hne
  have hstep := tenantStep_bound hbound
  rw [hres] at hstep
  have hfirst : hookStep tenantId (.idle, ⟨(getCurrentTenantId env v).2.tenant, live⟩)
      .tryAllocate = some
        (if (tenantTryAllocateQp tenantId (getCurrentTenantId env v).2.tenant).1 then .reserved
          else .idle,
          ⟨(tenantStep env v).2.tenant, live⟩) := by
    rw [hstep]
    rfl
  unfold createForTenant
  cases hok : (tenantTryAllocateQp tenantId (getCurrentTenantId env v).2.tenant).1 with
  | false =>
      have hdenied : (tenantStep env v).1 = none := by simp [hstep, hok]
      rw [hok] at hfirst
      simp only [hdenied]
      exact .cons hfirst (.refl _)
  | true =>
      have hgranted : (tenantStep env v).1 = some (true, tenantId) := by simp [hstep, hok]
      rw [hok] at hfirst
      simp only [hgranted]
      generalize (tenantStep env v).2 = w at hfirst ⊢
      refine .cons hfirst ?_
      unfold createAndSettle
      simp only
      generalize clipAttr w.proc.intercept.config attr = clipped
      cases hreal : real clipped with
      | some qp =>
          have hsecond : hookStep tenantId (.reserved, ⟨w.tenant, live⟩) (.createQp (some qp)) =
              some (.idle, ⟨w.tenant, insert qp live⟩) := if_neg (hfresh clipped qp hreal)
          simp only [publish_tenant]
          exact .cons hsecond (.refl _)
      | none => exact .cons (a := .createQp none) rfl (settle_alone tenantId .rollback _)

/-- **So is a count.** -/
theorem updateTenantResourceCount_alone {tenantId : UInt32} (hne : tenantId ≠ 0) {v : View}
    (hinit : v.proc.tenantInitialized = true) (change : Change) {kind : ResourceKind}
    {delta : Int32} (hchange : change.apply = countDelta kind delta) (live : Finset Nat) :
    Alone (hookStep tenantId) (.settling change, ⟨v.tenant, live⟩)
      (.idle, ⟨(updateTenantResourceCount tenantId kind delta v).tenant, live⟩) := by
  unfold updateTenantResourceCount
  rw [if_neg (by simp [hne, hinit]), ← hchange]
  exact settle_alone tenantId change ⟨v.tenant, live⟩

/-! ## The invariant -/

/-- The units that a change still has to take out of the QP count. -/
def Change.units : Change → Nat
  | .rollback => 1
  | .destroyed => 1
  | .counted _ _ => 0

/-- The units of the QP count that a caller holds without a live QP. -/
def Pc.units : Pc → Nat
  | .idle => 0
  | .reserved => 1
  | .settling change => change.units
  | .writing change _ => change.units

/-- The count is that of the live QPs and of the units held beside them, and
stays within the quota. -/
structure Counted (t : TenantIdx) (maxQp : Nat) (s : Shared) (units : Nat) : Prop where
  exact : QpExact (ledger s.tenant t) (s.live.card + units)
  quota : (ledger s.tenant t).quota.maxQpPerTenant.toNat = maxQp
  within : s.live.card + units ≤ maxQp

/-- What is written back was not overtaken: the store still holds the copy. -/
def CopyCurrent (tenantId : UInt32) : Pc × Shared → Action → Prop
  | (.writing _ copy, s), .updateUsage => tenantGetResourceUsage tenantId s.tenant = some copy
  | _, _ => True

section Invariant

variable {tenantId : UInt32} {t : TenantIdx} {maxQp : Nat} {s : Shared}

theorem Change.apply_exact (change : Change) {l : Ledger} {n : Nat}
    (h : QpExact l (n + change.units)) : QpExact (withUsage l (change.apply l.usage)) n := by
  cases change with
  | rollback => exact h.rollback (Nat.le_add_left 1 n)
  | destroyed => exact h.uncount (Nat.le_add_left 1 n)
  | counted kind delta => exact h.countOther kind.2 delta

/-- The reservation takes a unit below the quota only. -/
theorem Counted.tryAllocate {rest : Nat} (ht : tenantIdx? tenantId = some t)
    (h : Counted t maxQp s rest) :
    Counted t maxQp { s with tenant := (tenantTryAllocateQp tenantId s.tenant).2 }
      (rest + if (tenantTryAllocateQp tenantId s.tenant).1 then 1 else 0) := by
  have hact : (s.tenant.tenants t).status = .active := h.exact.active
  have hclamp : clampQp (s.tenant.tenants t).usage = (s.tenant.tenants t).usage := h.exact.clampQp
  rw [tenantTryAllocateQp_active ht hact, hclamp]
  by_cases hquota :
      (s.tenant.tenants t).quota.maxQpPerTenant ≤ (s.tenant.tenants t).usage.qpCount.toUInt32
  · rw [if_pos hquota]
    have hsame : ledger (setTenant t
        { s.tenant.tenants t with usage := (s.tenant.tenants t).usage } s.tenant) t =
        ledger s.tenant t := ledger_setUsage_self _
    exact ⟨hsame ▸ h.exact, hsame ▸ h.quota, h.within⟩
  · rw [if_neg hquota]
    have hlt := h.exact.lt_quota hquota
    have hnew : ledger (setTenant t
        { s.tenant.tenants t with usage := reserveQp (s.tenant.tenants t).usage } s.tenant) t =
        withUsage (ledger s.tenant t) (reserveQp (ledger s.tenant t).usage) :=
      ledger_setUsage_self _
    refine ⟨?_, ?_, ?_⟩
    · rw [hnew]
      exact h.exact.reserve hlt
    · rw [hnew]
      exact h.quota
    · have hq := h.quota
      simp only [if_true]
      omega

/-- Writing back a current copy settles its units. -/
theorem Counted.update {rest : Nat} (ht : tenantIdx? tenantId = some t) {change : Change}
    {copy : TenantResourceUsage} (h : Counted t maxQp s (rest + change.units))
    (hcurrent : tenantGetResourceUsage tenantId s.tenant = some copy) :
    Counted t maxQp
      { s with tenant := (tenantUpdateResourceUsage tenantId (change.apply copy) s.tenant).2 }
      rest := by
  have hact : (s.tenant.tenants t).status = .active := h.exact.active
  rw [tenantGetResourceUsage_active ht hact, Option.some.injEq] at hcurrent
  subst hcurrent
  rw [tenantUpdateResourceUsage_active ht hact]
  have hnew : ledger (setTenant t
      { s.tenant.tenants t with usage := change.apply (s.tenant.tenants t).usage } s.tenant) t =
      withUsage (ledger s.tenant t) (change.apply (ledger s.tenant t).usage) :=
    ledger_setUsage_self _
  have hexact := h.exact
  have hwithin := h.within
  rw [← Nat.add_assoc] at hexact
  refine ⟨?_, ?_, ?_⟩
  · rw [hnew]
    exact change.apply_exact hexact
  · rw [hnew]
    exact h.quota
  · show s.live.card + rest ≤ maxQp
    omega

/-- A unit and a live QP count the same. -/
theorem Counted.of_live {units units' : Nat} {live : Finset Nat} (h : Counted t maxQp s units)
    (hsum : live.card + units' = s.live.card + units) :
    Counted t maxQp { s with live := live } units' := by
  refine ⟨?_, h.quota, ?_⟩
  · rw [hsum]
    exact h.exact
  · rw [hsum]
    exact h.within

/-- **One piece of one hook**, whatever units the other callers hold. -/
theorem hookStep_counted (ht : tenantIdx? tenantId = some t) (rest : Nat) (k : Pc) (s : Shared)
    (a : Action) (k' : Pc) (s' : Shared) (h : Counted t maxQp s (rest + k.units))
    (hok : CopyCurrent tenantId (k, s) a) (hstep : hookStep tenantId (k, s) a = some (k', s')) :
    Counted t maxQp s' (rest + k'.units) := by
  unfold hookStep at hstep
  split at hstep
  · -- the reservation
    rename_i s₀ hk
    cases hk
    obtain ⟨rfl, rfl⟩ := Prod.mk.inj (Option.some.inj hstep)
    have htried := Counted.tryAllocate ht h
    cases hgranted : (tenantTryAllocateQp tenantId s.tenant).1 with
    | false =>
        rw [hgranted] at htried
        exact htried
    | true =>
        rw [hgranted] at htried
        exact htried
  · -- a failed creation keeps its unit for the roll-back
    rename_i s₀ hk
    cases hk
    obtain ⟨rfl, rfl⟩ := Prod.mk.inj (Option.some.inj hstep)
    exact h
  · -- a successful one turns it into a live QP
    rename_i s₀ qp hk
    cases hk
    split at hstep
    · cases hstep
    · rename_i hnew
      obtain ⟨rfl, rfl⟩ := Prod.mk.inj (Option.some.inj hstep)
      apply h.of_live
      have hcard := Finset.card_insert_of_notMem hnew
      simp only [Pc.units] at hcard ⊢
      omega
  · -- a destroyed QP leaves its unit behind
    rename_i s₀ qp hk
    cases hk
    split at hstep
    · rename_i hmem
      obtain ⟨rfl, rfl⟩ := Prod.mk.inj (Option.some.inj hstep)
      apply h.of_live
      have hcard := Finset.card_erase_add_one hmem
      simp only [Pc.units, Change.units] at hcard ⊢
      omega
    · cases hstep
  · rename_i s₀ kind hk
    cases hk
    obtain ⟨rfl, rfl⟩ := Prod.mk.inj (Option.some.inj hstep)
    exact h
  · rename_i s₀ kind hk
    cases hk
    obtain ⟨rfl, rfl⟩ := Prod.mk.inj (Option.some.inj hstep)
    exact h
  · -- the tenant is ACTIVE, so the copy is made
    rename_i change s₀ hk
    cases hk
    rw [tenantGetResourceUsage_active ht h.exact.active] at hstep
    obtain ⟨rfl, rfl⟩ := Prod.mk.inj (Option.some.inj hstep)
    exact h
  · rename_i change copy s₀ hk
    cases hk
    obtain ⟨rfl, rfl⟩ := Prod.mk.inj (Option.some.inj hstep)
    exact Counted.update ht h hok
  · cases hstep

end Invariant

/-! ## The result -/

section Result

variable {ι : Type} [Fintype ι]

/-- A new tenant, and no hook in progress. -/
structure HookStart (tenantId : UInt32) (t : TenantIdx) (quota : TenantQuota)
    (c : Config ι Pc Shared) : Prop where
  fresh : FreshTenant tenantId t quota c.shared.tenant
  live : c.shared.live = ∅
  idle : ∀ i, c.control i = .idle

theorem HookStart.counted {tenantId : UInt32} {t : TenantIdx} {quota : TenantQuota}
    {c : Config ι Pc Shared} (h : HookStart tenantId t quota c)
    (hquota : quota.maxQpPerTenant.toNat ≤ 2 ^ 31 - 1) :
    Counted t quota.maxQpPerTenant.toNat c.shared (tally Pc.units c.control) := by
  have hzero : tally Pc.units c.control = 0 :=
    tally_eq_zero fun i => by rw [h.idle i]; rfl
  have hledger := h.fresh.ledger_eq
  rw [hzero]
  refine ⟨⟨?_, ?_, ?_⟩, ?_, ?_⟩
  · rw [hledger]
  · rw [hledger]
    exact hquota
  · rw [hledger, h.live]
    rfl
  · rw [hledger]
  · rw [h.live]
    exact Nat.zero_le _

/-- **The quota under concurrency.**  In every interleaving in which each record
that is written back is still the one that was copied out, and with a quota
that an `int` can count up to, there are never more live QPs than the quota
allows, and whenever no hook is in progress the count is that of the live
QPs. -/
theorem interleaved_within_quota [DecidableEq ι] {tenantId : UInt32} {t : TenantIdx}
    {quota : TenantQuota}
    {c₀ c : Config ι Pc Shared} {labels : List (ι × Action)}
    (hstart : HookStart tenantId t quota c₀)
    (hquota : quota.maxQpPerTenant.toNat ≤ 2 ^ 31 - 1)
    (hrun : Run (Guarded (CopyCurrent tenantId) (hookStep tenantId)) c₀ labels c) :
    c.shared.live.card ≤ quota.maxQpPerTenant.toNat ∧
      ((∀ i, c.control i = .idle) →
        (c.shared.tenant.tenants t).usage.qpCount.toInt = c.shared.live.card) := by
  have hinv : Counted t quota.maxQpPerTenant.toNat c.shared (tally Pc.units c.control) :=
    tally_invariant_guarded (hookStep_counted hstart.fresh.idx) (hstart.counted hquota) hrun
  constructor
  · exact Nat.le_trans (Nat.le_add_right _ _) hinv.within
  · intro hidle
    have hzero : tally Pc.units c.control = 0 :=
      tally_eq_zero fun i => by rw [hidle i]; rfl
    have hexact := hinv.exact.qp
    rw [hzero, Nat.add_zero] at hexact
    exact hexact

end Result

/-- A quota of one QP. -/
def oneQp : TenantQuota := { defaultQuota with maxQpPerTenant := 1 }

/-- Two callers of tenant 1, which may have one QP. -/
def twoCallers : Config Bool Pc Shared :=
  ⟨⟨(tenantCreate 1 none (some oneQp) zeroed).2, ∅⟩, fun _ => .idle⟩

theorem twoCallers_start : HookStart 1 1 oneQp twoCallers where
  fresh := ⟨by decide, tenantIdx?_one, rfl⟩
  live := rfl
  idle := fun _ => rfl

def cq : { kind : ResourceKind // kind ≠ .qp } := ⟨.cq, by decide⟩

/-- The CQ of the first caller is counted before the second creates its QP. -/
theorem cq_then_qp : ∃ labels c,
    Run (Guarded (CopyCurrent 1) (hookStep 1)) twoCallers labels c ∧ c.shared.live = {7} ∧
      c.shared.live.card ≤ 1 ∧
      (c.shared.tenant.tenants 1).usage.qpCount.toInt = c.shared.live.card := by
  have hrun : Run (Guarded (CopyCurrent 1) (hookStep 1)) twoCallers [] twoCallers := .start
  have hrun := hrun.snoc (a := (false, Action.createOther cq)) ⟨trivial, rfl⟩
  have hrun := hrun.snoc (a := (false, Action.getUsage)) ⟨trivial, rfl⟩
  have hrun := hrun.snoc (a := (false, Action.updateUsage)) ⟨rfl, rfl⟩
  have hrun := hrun.snoc (a := (true, Action.tryAllocate)) ⟨trivial, rfl⟩
  have hrun := hrun.snoc (a := (true, Action.createQp (some 7))) ⟨trivial, rfl⟩
  obtain ⟨hwithin, hcount⟩ := interleaved_within_quota twoCallers_start (by decide) hrun
  refine ⟨_, _, hrun, rfl, hwithin, hcount ?_⟩
  intro i
  cases i <;> rfl

/-- The schedule of a lost update: the first caller copies the record out to
count a CQ, the second creates QP 7, the first writes its copy back, and the
second creates QP 8. -/
def lostUpdate : List (Bool × Action) :=
  [(false, .createOther cq), (false, .getUsage), (true, .tryAllocate), (true, .createQp (some 7)),
    (false, .updateUsage), (true, .tryAllocate), (true, .createQp (some 8))]

theorem lost_update_exceeds_quota : ∃ c,
    HookStart 1 1 oneQp twoCallers ∧ Run (Interleaved (hookStep 1)) twoCallers lostUpdate c ∧
      (∀ i, c.control i = .idle) ∧ c.shared.live.card = 2 ∧
      (c.shared.tenant.tenants 1).usage.qpCount.toInt = 1 := by
  refine ⟨_, twoCallers_start, run_of_foldlM rfl, ?_, ?_, ?_⟩
  · intro i
    cases i <;> rfl
  · decide
  · decide

end MtRdma.Ports.HookInterleaving
