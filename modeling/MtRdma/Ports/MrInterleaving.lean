import MtRdma.Verified.Interleaving
import MtRdma.Verified.MachineInt
import MtRdma.Ports.HookInterleaving

/-!
# MR registrations of many processes at once

A QP is reserved before its verb.  An MR is not: `ibv_reg_mr` reads the count
with `tenant_get_info`, invokes the verb, and counts the new MR afterwards, in
two more accesses to the tenant store.  Between the check and the count any
number of other processes may pass the same check.

The quota holds in the interleavings in which no check is made while another
registration is on its way, and each record that is written back is still the
one that was copied out.  Two registrations that check before either counts
exceed it.
-/

namespace MtRdma.Ports.MrInterleaving

open Verified.MachineInt
open Verified.Runs
open Verified.Interleaving
open SharedMemoryTenant
open RdmaHooks
open HookInterleaving (Shared liveAfter)

variable {tenantId : UInt32} {v : View} {live : Finset Nat} {length : UInt64}

/-! ## The pieces of the two hooks -/

/-- What a hook has to count after its verb. -/
inductive Change where
  | registered
  | deregistered

def Change.delta : Change → Int32
  | .registered => 1
  | .deregistered => -1

/-- Where a caller is: in no hook, between the check and the verb, before the
copy of the usage record, or with the copy in hand. -/
inductive Pc where
  | idle
  | admitted
  | settling (change : Change)
  | writing (change : Change) (copy : TenantResourceUsage)

/-- The pieces.  A check that passed may still be followed by a refusal of the
rate limiter; a deregistration is listed where its verb succeeds, since
otherwise it does nothing. -/
inductive Action where
  | check (length : UInt64)
  | rateLimited
  | regMr (answer : Option Nat)
  | deregMr (mr : Nat)
  | getUsage
  | updateUsage

/-- The check of a process that has a tenant. -/
def mrAdmitted (tenantId : UInt32) (length : UInt64) (s : TenantSharedMemory) : Bool :=
  match tenantGetInfo tenantId s with
  | none => false
  | some info =>
      !(info.quota.maxMrPerTenant ≤ info.usage.mrCount.toUInt32) &&
      !(0 < info.quota.maxMemoryPerTenant &&
        info.quota.maxMemoryPerTenant < info.usage.memoryUsed + length)

/-- One piece, performed by a caller of tenant `tenantId`. -/
def mrStep (tenantId : UInt32) : Pc × Shared → Action → Option (Pc × Shared)
  | (.idle, s), .check length =>
      some (if mrAdmitted tenantId length s.tenant then .admitted else .idle, s)
  | (.admitted, s), .rateLimited => some (.idle, s)
  | (.admitted, s), .regMr none => some (.idle, s)
  | (.admitted, s), .regMr (some mr) =>
      if mr ∈ s.live then none
      else some (.settling .registered, { s with live := insert mr s.live })
  | (.idle, s), .deregMr mr =>
      if mr ∈ s.live then some (.settling .deregistered, { s with live := s.live.erase mr })
      else none
  | (.settling change, s), .getUsage =>
      match tenantGetResourceUsage tenantId s.tenant with
      | none => some (.idle, s)
      | some usage => some (.writing change usage, s)
  | (.writing change copy, s), .updateUsage =>
      some (.idle, { s with
        tenant :=
          (tenantUpdateResourceUsage tenantId (countDelta .mr change.delta copy) s.tenant).2 })
  | _, _ => none

/-! ## A hook that nobody disturbs -/

theorem checkTenantMrLimitInline_eq (hne : tenantId ≠ 0) (hinit : v.proc.tenantInitialized = true)
    (length : UInt64) :
    checkTenantMrLimitInline tenantId length v = mrAdmitted tenantId length v.tenant := by
  unfold checkTenantMrLimitInline
  exact if_neg (by simp [hne, hinit])

/-- Counting at once is the count of the sequential hooks. -/
theorem count_alone (hne : tenantId ≠ 0) (hinit : v.proc.tenantInitialized = true)
    (change : Change) (live : Finset Nat) :
    Alone (mrStep tenantId) (.settling change, ⟨v.tenant, live⟩)
      (.idle, ⟨(updateTenantResourceCount tenantId .mr change.delta v).tenant, live⟩) := by
  unfold updateTenantResourceCount rewriteUsage
  rw [if_neg (by simp [hne, hinit])]
  cases hget : tenantGetResourceUsage tenantId v.tenant with
  | none => exact .cons (a := .getUsage) (by simp [mrStep, hget]) (.refl _)
  | some usage =>
      have hcopy : mrStep tenantId (.settling change, ⟨v.tenant, live⟩) .getUsage =
          some (.writing change usage, ⟨v.tenant, live⟩) := by simp [mrStep, hget]
      exact .cons hcopy (.cons (a := .updateUsage) rfl (.refl _))

/-- **A registration alone is the sequential hook.** -/
theorem ibvRegMr_alone (hne : tenantId ≠ 0) {env : HookEnv}
    (henabled : rdmaInterceptIsEnabled (hooksInitOnce env v).proc = true)
    (hfound : (hooksInitOnce env v).proc.realVerbs.regMr = true)
    (hres : (getCurrentTenantId env (hooksInitOnce env v)).1 = tenantId) (length : UInt64)
    (real : Option Nat) (hfresh : ∀ mr, real = some mr → mr ∉ live) :
    Alone (mrStep tenantId)
      (.idle, ⟨(getCurrentTenantId env (hooksInitOnce env v)).2.tenant, live⟩)
      (.idle, ⟨(ibvRegMr env length real v).2.tenant,
        liveAfter live (ibvRegMr env length real v).1.object⟩) := by
  have hcases := ibvRegMr_cases env length real v
  generalize ibvRegMr env length real v = result at hcases ⊢
  generalize hooksInitOnce env v = w at hcases henabled hfound hres ⊢
  have hinit : (getCurrentTenantId env w).2.proc.tenantInitialized = true :=
    tenantInitialized_of_resolved (by rw [hres]; exact hne)
  have hfirst : ∀ {passed : Bool}, checkTenantMrLimitInline (getCurrentTenantId env w).1 length
      (getCurrentTenantId env w).2 = passed →
      mrStep tenantId (.idle, ⟨(getCurrentTenantId env w).2.tenant, live⟩) (.check length) =
        some (if passed then .admitted else .idle,
          ⟨(getCurrentTenantId env w).2.tenant, live⟩) := by
    rintro passed rfl
    rw [hres, checkTenantMrLimitInline_eq hne hinit]
    rfl
  cases hcases with
  | missing h => simp [hfound] at h
  | passed h => simp [henabled] at h
  | overQuota hcheck => exact .cons (hfirst hcheck) (.refl _)
  | overRate _ hcheck => exact .cons (hfirst hcheck) (.cons (a := .rateLimited) rfl (.refl _))
  | refused _ hcheck => exact .cons (hfirst hcheck) (.cons (a := .regMr none) rfl (.refl _))
  | registered mr hreal hcheck =>
      have hverb : mrStep tenantId (.admitted, ⟨(getCurrentTenantId env w).2.tenant, live⟩)
          (.regMr (some mr)) = some (.settling .registered,
            ⟨(getCurrentTenantId env w).2.tenant, insert mr live⟩) := if_neg (hfresh mr hreal)
      have hsame := checkMrRateLimit_identity env (getCurrentTenantId env w).2.proc
      have hcount := count_alone hne
        (v := { (getCurrentTenantId env w).2 with
          proc := countOwnMr length (checkMrRateLimit env (getCurrentTenantId env w).2.proc).2 })
        (hsame.tenantInitialized.trans hinit) .registered (insert mr live)
      rw [hres]
      exact .cons (hfirst hcheck) (.cons hverb hcount)

/-- The view in which a deregistration looks for its tenant. -/
def deregistering (env : HookEnv) (length : UInt64) (v : View) : View :=
  { hooksInitOnce env v with
    proc := uncountOwnMr length (checkMrRateLimit env (hooksInitOnce env v).proc).2 }

/-- **So is a deregistration**, from the store in which it is resolved. -/
theorem ibvDeregMr_alone (hne : tenantId ≠ 0) {env : HookEnv}
    (henabled : rdmaInterceptIsEnabled (hooksInitOnce env v).proc = true)
    (hfound : (hooksInitOnce env v).proc.realVerbs.deregMr = true)
    (hlimit : (checkMrRateLimit env (hooksInitOnce env v).proc).1 = true)
    (hres : (getCurrentTenantId env (deregistering env length v)).1 = tenantId) {mr : Nat}
    (hmem : mr ∈ live) :
    Alone (mrStep tenantId)
      (.idle, ⟨(getCurrentTenantId env (deregistering env length v)).2.tenant, live⟩)
      (.idle, ⟨(ibvDeregMr env length 0 v).2.tenant, live.erase mr⟩) := by
  have hinit := tenantInitialized_of_resolved (by rw [hres]; exact hne)
  have hcases := ibvDeregMr_cases env length 0 v
  generalize ibvDeregMr env length 0 v = result at hcases ⊢
  unfold deregistering at hres hinit ⊢
  generalize hooksInitOnce env v = w at *
  cases hcases with
  | missing h => simp [hfound] at h
  | passed h => simp [henabled] at h
  | overRate h => simp [hlimit] at h
  | refused h => exact absurd rfl h
  | deregistered u _ hu =>
      subst hu
      have hverb : ∀ s, mrStep tenantId (.idle, ⟨s, live⟩) (.deregMr mr) =
          some (.settling .deregistered, ⟨s, live.erase mr⟩) := fun _ => if_pos hmem
      rw [hres]
      exact .cons (hverb _) (count_alone hne hinit .deregistered (live.erase mr))

/-! ## The invariant -/

/-- What a caller can hold: leave to register, an MR that is not counted yet,
or a count whose MR is gone. -/
inductive Holding where
  | admitted
  | uncounted
  | owed
  deriving DecidableEq

/-- What a change leaves open until it is written back. -/
def Change.holding : Change → Holding
  | .registered => .uncounted
  | .deregistered => .owed

def Pc.holding? : Pc → Option Holding
  | .idle => none
  | .admitted => some .admitted
  | .settling change => some change.holding
  | .writing change _ => some change.holding

/-- One unit of what the caller holds. -/
def Pc.holds (k : Pc) (h : Holding) : Nat := if k.holding? = some h then 1 else 0

/-- The count follows the live MRs, up to what the callers hold; the count and
the registrations on their way stay within the quota, and there is at most one
such registration. -/
structure Balanced (t : TenantIdx) (maxMr : Nat) (s : Shared) (held : Holding → Nat) : Prop where
  active : (ledger s.tenant t).status = .active
  quota : (ledger s.tenant t).quota.maxMrPerTenant.toNat = maxMr
  count : (ledger s.tenant t).usage.mrCount =
    Int32.ofInt ((s.live.card : Int) + held .owed - held .uncounted)
  within : s.live.card + held .owed + held .admitted ≤ maxMr
  alone : held .admitted + held .uncounted ≤ 1

/-- No other registration is on its way when the count is checked, and what is
written back was not overtaken. -/
def Undisturbed (tenantId : UInt32) (rest : Holding → Nat) : Pc × Shared → Action → Prop
  | (.idle, _), .check _ => rest .admitted = 0 ∧ rest .uncounted = 0
  | (.writing _ copy, s), .updateUsage => tenantGetResourceUsage tenantId s.tenant = some copy
  | _, _ => True

section Invariant

variable {tenantId : UInt32} {t : TenantIdx} {maxMr : Nat} {s : Shared} {rest : Holding → Nat}

theorem holds_idle (h : Holding) : Pc.idle.holds h = 0 := by
  simp [Pc.holds, Pc.holding?]

theorem holds_admitted (h : Holding) :
    Pc.admitted.holds h = if h = .admitted then 1 else 0 := by
  cases h <;> simp [Pc.holds, Pc.holding?]

theorem holds_settling (change : Change) (h : Holding) :
    (Pc.settling change).holds h = if h = change.holding then 1 else 0 := by
  cases change <;> cases h <;> simp [Pc.holds, Pc.holding?, Change.holding]

theorem holds_writing (change : Change) (copy : TenantResourceUsage) :
    (Pc.writing change copy).holds = (Pc.settling change).holds := rfl

/-- A check that passes finds the count below the quota. -/
theorem mrCount_lt_of_admitted (ht : tenantIdx? tenantId = some t)
    (hact : (ledger s.tenant t).status = .active) (h : mrAdmitted tenantId length s.tenant = true) :
    (ledger s.tenant t).usage.mrCount.toUInt32 < (ledger s.tenant t).quota.maxMrPerTenant := by
  have hact' : (s.tenant.tenants t).status = .active := hact
  unfold mrAdmitted at h
  simp only [tenantGetInfo, ht, hact', ne_eq, reduceCtorEq, not_false_eq_true, if_true,
    Bool.and_eq_true, Bool.not_eq_true', decide_eq_false_iff_not, UInt32.not_le] at h
  exact h.1

/-- A check that passes with no other registration on its way leaves room for
one more. -/
theorem Balanced.check (ht : tenantIdx? tenantId = some t)
    (h : Balanced t maxMr s (rest + Pc.idle.holds)) (hadmitted : rest .admitted = 0)
    (huncounted : rest .uncounted = 0) :
    Balanced t maxMr s (rest + (if mrAdmitted tenantId length s.tenant then Pc.admitted
      else Pc.idle).holds) := by
  cases hpass : mrAdmitted tenantId length s.tenant with
  | false => exact h
  | true =>
      have hlt := mrCount_lt_of_admitted ht h.active hpass
      have hcount := h.count
      have hwithin := h.within
      have hmax : maxMr < 2 ^ 32 := h.quota ▸ UInt32.toNat_lt _
      rw [UInt32.lt_iff_toNat_lt, h.quota] at hlt
      simp only [Pi.add_apply, holds_idle, hadmitted, huncounted, Nat.add_zero] at hcount hwithin
      have hn : (s.live.card : Int) + rest .owed - (0 : Nat) =
          ((s.live.card + rest .owed : Nat) : Int) := by
        omega
      rw [hcount, hn, toNat_toUInt32_ofInt (by omega)] at hlt
      refine ⟨h.active, h.quota, ?_, ?_, ?_⟩
      · simpa [holds_admitted, huncounted] using hcount
      · simp [holds_admitted, hadmitted]
        omega
      · simp [holds_admitted, hadmitted, huncounted]

/-- A verb moves an MR and what its caller holds. -/
theorem Balanced.verb {held held' : Holding → Nat} (h : Balanced t maxMr s held)
    (hcount : (live.card : Int) + held' .owed - held' .uncounted =
      s.live.card + held .owed - held .uncounted)
    (hwithin : live.card + held' .owed + held' .admitted ≤
      s.live.card + held .owed + held .admitted)
    (halone : held' .admitted + held' .uncounted ≤ held .admitted + held .uncounted) :
    Balanced t maxMr { s with live := live } held' where
  active := h.active
  quota := h.quota
  count := by
    rw [hcount]
    exact h.count
  within := Nat.le_trans hwithin h.within
  alone := Nat.le_trans halone h.alone

/-- Writing back a current copy settles what its caller held. -/
theorem Balanced.update (ht : tenantIdx? tenantId = some t) {change : Change}
    {copy : TenantResourceUsage} (h : Balanced t maxMr s (rest + (Pc.settling change).holds))
    (hcurrent : tenantGetResourceUsage tenantId s.tenant = some copy) :
    Balanced t maxMr
      { s with
        tenant :=
          (tenantUpdateResourceUsage tenantId (countDelta .mr change.delta copy) s.tenant).2 }
      (rest + Pc.idle.holds) := by
  have hact : (s.tenant.tenants t).status = .active := h.active
  rw [tenantGetResourceUsage_active ht hact, Option.some.injEq] at hcurrent
  subst hcurrent
  rw [tenantUpdateResourceUsage_active ht hact]
  have hnew : ledger (setTenant t { s.tenant.tenants t with
      usage := countDelta .mr change.delta (s.tenant.tenants t).usage } s.tenant) t =
      withUsage (ledger s.tenant t) (countDelta .mr change.delta (ledger s.tenant t).usage) :=
    ledger_setUsage_self _
  have hcount := h.count
  have hwithin := h.within
  have halone := h.alone
  refine ⟨?_, ?_, ?_, ?_, ?_⟩
  · rw [hnew]
    exact h.active
  · rw [hnew]
    exact h.quota
  · rw [hnew]
    show (ledger s.tenant t).usage.mrCount + change.delta = _
    rw [hcount]
    cases change with
    | registered =>
        simp only [Pi.add_apply, holds_settling, holds_idle, Change.holding, Change.delta]
        rw [← ofInt_add_one]
        congr 1
        simp
        omega
    | deregistered =>
        simp only [Pi.add_apply, holds_settling, holds_idle, Change.holding, Change.delta]
        rw [← ofInt_sub_one]
        congr 1
        simp
        omega
  · simp only [Pi.add_apply, holds_settling, holds_idle] at hwithin ⊢
    omega
  · simp only [Pi.add_apply, holds_settling, holds_idle] at halone ⊢
    omega

/-- **One piece of one hook**, whatever the other callers hold. -/
theorem mrStep_balanced (ht : tenantIdx? tenantId = some t) (rest : Holding → Nat) (k : Pc)
    (s : Shared) (a : Action) (k' : Pc) (s' : Shared) (h : Balanced t maxMr s (rest + k.holds))
    (hok : Undisturbed tenantId rest (k, s) a) (hstep : mrStep tenantId (k, s) a = some (k', s')) :
    Balanced t maxMr s' (rest + k'.holds) := by
  unfold mrStep at hstep
  split at hstep
  · rename_i s₀ length hk
    cases hk
    obtain ⟨rfl, rfl⟩ := Prod.mk.inj (Option.some.inj hstep)
    exact h.check ht hok.1 hok.2
  · -- refused by the rate limiter
    rename_i s₀ hk
    cases hk
    obtain ⟨rfl, rfl⟩ := Prod.mk.inj (Option.some.inj hstep)
    apply h.verb <;> simp [holds_admitted, holds_idle]
  · -- a failed verb
    rename_i s₀ hk
    cases hk
    obtain ⟨rfl, rfl⟩ := Prod.mk.inj (Option.some.inj hstep)
    apply h.verb <;> simp [holds_admitted, holds_idle]
  · -- the leave to register becomes an MR that is not counted yet
    rename_i s₀ mr hk
    cases hk
    split at hstep
    · cases hstep
    · rename_i hnew
      obtain ⟨rfl, rfl⟩ := Prod.mk.inj (Option.some.inj hstep)
      have hcard := Finset.card_insert_of_notMem hnew
      apply h.verb <;>
        simp only [Pi.add_apply, holds_admitted, holds_settling, Change.holding, reduceCtorEq,
          if_true, if_false, hcard] <;> omega
  · -- a live MR becomes a count that is owed
    rename_i s₀ mr hk
    cases hk
    split at hstep
    · rename_i hmem
      obtain ⟨rfl, rfl⟩ := Prod.mk.inj (Option.some.inj hstep)
      have hcard := Finset.card_erase_add_one hmem
      apply h.verb <;>
        simp only [Pi.add_apply, holds_idle, holds_settling, Change.holding, reduceCtorEq,
          if_true, if_false] <;> omega
    · cases hstep
  · -- the tenant is ACTIVE, so the copy is made
    rename_i change s₀ hk
    cases hk
    rw [tenantGetResourceUsage_active ht h.active] at hstep
    obtain ⟨rfl, rfl⟩ := Prod.mk.inj (Option.some.inj hstep)
    rw [holds_writing]
    exact h
  · rename_i change copy s₀ hk
    cases hk
    obtain ⟨rfl, rfl⟩ := Prod.mk.inj (Option.some.inj hstep)
    exact Balanced.update ht h hok
  · cases hstep

end Invariant

/-! ## The result -/

section Result

variable {ι : Type} [Fintype ι]

/-- A new tenant, and no hook in progress. -/
structure MrStart (tenantId : UInt32) (t : TenantIdx) (quota : TenantQuota)
    (c : Config ι Pc Shared) : Prop where
  fresh : FreshTenant tenantId t quota c.shared.tenant
  live : c.shared.live = ∅
  idle : ∀ i, c.control i = .idle

theorem MrStart.balanced {t : TenantIdx} {quota : TenantQuota} {c : Config ι Pc Shared}
    (h : MrStart tenantId t quota c) :
    Balanced t quota.maxMrPerTenant.toNat c.shared (tally Pc.holds c.control) := by
  have hzero : tally Pc.holds c.control = 0 := by
    apply tally_eq_zero
    intro i
    funext held
    rw [h.idle i, holds_idle]
    rfl
  have hledger := h.fresh.ledger_eq
  rw [hzero]
  refine ⟨?_, ?_, ?_, ?_, ?_⟩
  · rw [hledger]
  · rw [hledger]
  · rw [hledger, h.live]
    rfl
  · rw [h.live]
    exact Nat.zero_le _
  · exact Nat.zero_le _

/-- **The MR quota under concurrency.**  In every interleaving in which no count
is checked while another registration is on its way, and each record that is
written back is still the one that was copied out, there are never more live
MRs than the quota allows. -/
theorem interleaved_mrs_within_quota [DecidableEq ι] {tenantId : UInt32} {t : TenantIdx}
    {quota : TenantQuota} {c₀ c : Config ι Pc Shared} {labels : List (ι × Action)}
    (hstart : MrStart tenantId t quota c₀)
    (hrun : Run (GuardedBy Pc.holds (Undisturbed tenantId) (mrStep tenantId)) c₀ labels c) :
    c.shared.live.card ≤ quota.maxMrPerTenant.toNat := by
  have hinv : Balanced t quota.maxMrPerTenant.toNat c.shared (tally Pc.holds c.control) :=
    tally_invariant (mrStep_balanced hstart.fresh.idx) hstart.balanced hrun
  have hwithin := hinv.within
  omega

end Result

/-- A quota of one MR. -/
def oneMr : TenantQuota := { defaultQuota with maxMrPerTenant := 1 }

/-- Two callers of tenant 1, which may have one MR. -/
def twoRegistrars : Config Bool Pc Shared :=
  ⟨⟨(tenantCreate 1 none (some oneMr) zeroed).2, ∅⟩, fun _ => .idle⟩

theorem twoRegistrars_start : MrStart 1 1 oneMr twoRegistrars where
  fresh := ⟨by decide, tenantIdx?_one, rfl⟩
  live := rfl
  idle := fun _ => rfl

/-- The second caller checks after the first has counted, and is refused. -/
theorem second_mr_refused : ∃ labels c,
    Run (GuardedBy Pc.holds (Undisturbed 1) (mrStep 1)) twoRegistrars labels c ∧
      c.shared.live = {7} ∧ c.control true = .idle ∧ c.shared.live.card ≤ 1 := by
  have hrun : Run (GuardedBy Pc.holds (Undisturbed 1) (mrStep 1)) twoRegistrars [] twoRegistrars :=
    .start
  have hrun := hrun.snoc (a := (false, Action.check 0)) ⟨⟨rfl, rfl⟩, rfl⟩
  have hrun := hrun.snoc (a := (false, Action.regMr (some 7))) ⟨trivial, rfl⟩
  have hrun := hrun.snoc (a := (false, Action.getUsage)) ⟨trivial, rfl⟩
  have hrun := hrun.snoc (a := (false, Action.updateUsage)) ⟨rfl, rfl⟩
  have hrun := hrun.snoc (a := (true, Action.check 0)) ⟨⟨rfl, rfl⟩, rfl⟩
  exact ⟨_, _, hrun, rfl, rfl, interleaved_mrs_within_quota twoRegistrars_start hrun⟩

/-- Both callers check, and then both register. -/
def bothCheckFirst : List (Bool × Action) :=
  [(false, .check 0), (true, .check 0), (false, .regMr (some 7)), (true, .regMr (some 8))]

theorem both_register_beyond_quota : ∃ c,
    MrStart 1 1 oneMr twoRegistrars ∧
      Run (Interleaved (mrStep 1)) twoRegistrars bothCheckFirst c ∧
      oneMr.maxMrPerTenant.toNat = 1 ∧ c.shared.live.card = 2 := by
  refine ⟨_, twoRegistrars_start, run_of_foldlM rfl, rfl, ?_⟩
  decide

end MtRdma.Ports.MrInterleaving
