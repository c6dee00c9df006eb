import MtRdma.Ports.HookAccounting

/-!
# Returning quota to the tenant that was charged

A creating hook charges the tenant its process is bound to at that moment.  A
destroying hook does not remember whom it charged: it resolves the process
again, and counts down for the tenant it finds, if that tenant is ACTIVE.

Here processes may be re-bound and tenants suspended between the two.  The
world keeps, next to the real state, the tenant whose counter moved when an
object was created.
-/

namespace MtRdma.Ports.RdmaHooks

open Verified.MachineInt
open Verified.Runs
open SharedMemory
open SharedMemoryTenant

/-! ## Counters -/

/-- The counter of a kind of object. -/
def count (u : TenantResourceUsage) : ResourceKind → Int32
  | .qp => u.qpCount
  | .mr => u.mrCount
  | .cq => u.cqCount
  | .pd => u.pdCount

/-- The counter has something to give back: QPs are held at zero, the others
wrap at the lower end. -/
def Lowerable (u : TenantResourceUsage) : ResourceKind → Prop
  | .qp => 0 < u.qpCount.toInt
  | .mr => -2 ^ 31 < u.mrCount.toInt
  | .cq => -2 ^ 31 < u.cqCount.toInt
  | .pd => -2 ^ 31 < u.pdCount.toInt

theorem count_qp (u : TenantResourceUsage) : count u .qp = u.qpCount := rfl
theorem count_mr (u : TenantResourceUsage) : count u .mr = u.mrCount := rfl
theorem count_cq (u : TenantResourceUsage) : count u .cq = u.cqCount := rfl
theorem count_pd (u : TenantResourceUsage) : count u .pd = u.pdCount := rfl

theorem qpCount_countDelta (delta : Int32) (u : TenantResourceUsage) :
    (countDelta .qp delta u).qpCount =
      if u.qpCount + delta < 0 then 0 else u.qpCount + delta := rfl

theorem mrCount_countDelta (delta : Int32) (u : TenantResourceUsage) :
    (countDelta .mr delta u).mrCount = u.mrCount + delta := rfl

theorem cqCount_countDelta (delta : Int32) (u : TenantResourceUsage) :
    (countDelta .cq delta u).cqCount = u.cqCount + delta := rfl

theorem pdCount_countDelta (delta : Int32) (u : TenantResourceUsage) :
    (countDelta .pd delta u).pdCount = u.pdCount + delta := rfl

/-- A counter that wraps. -/
private theorem wrapping_iff (x : Int32) : (x + -1).toInt = x.toInt - 1 ↔ -2 ^ 31 < x.toInt := by
  have hlo : -2 ^ 31 ≤ x.toInt := Int32.le_toInt x
  rw [toInt_add_neg_one]
  split
  · omega
  · omega

/-- A counter that is held at zero. -/
private theorem held_iff (x : Int32) :
    (if x + -1 < 0 then (0 : Int32) else x + -1).toInt = x.toInt - 1 ↔ 0 < x.toInt := by
  have hdown := toInt_add_neg_one x
  have hhi : x.toInt < 2 ^ 31 := Int32.toInt_lt x
  by_cases hneg : x + -1 < 0
  · have hneg' := Int32.lt_iff_toInt_lt.mp hneg
    rw [Int32.toInt_zero] at hneg'
    rw [if_pos hneg, Int32.toInt_zero]
    split at hdown <;> omega
  · have hneg' := mt Int32.lt_iff_toInt_lt.mpr hneg
    rw [Int32.toInt_zero] at hneg'
    rw [if_neg hneg]
    split at hdown <;> omega

/-- Counting down lowers a counter by exactly one if it can be lowered. -/
theorem count_countDelta_iff (kind : ResourceKind) (u : TenantResourceUsage) :
    (count (countDelta kind (-1) u) kind).toInt = (count u kind).toInt - 1 ↔
      Lowerable u kind := by
  cases kind with
  | qp =>
      rw [count_qp, count_qp, qpCount_countDelta]
      exact held_iff u.qpCount
  | mr =>
      rw [count_mr, count_mr, mrCount_countDelta]
      exact wrapping_iff u.mrCount
  | cq =>
      rw [count_cq, count_cq, cqCount_countDelta]
      exact wrapping_iff u.cqCount
  | pd =>
      rw [count_pd, count_pd, pdCount_countDelta]
      exact wrapping_iff u.pdCount

/-- Counting down never leaves a usage record as it was. -/
theorem countDelta_ne (kind : ResourceKind) (u : TenantResourceUsage) :
    countDelta kind (-1) u ≠ u := by
  intro h
  have hone : (-1 : Int32) < 0 := by decide
  cases kind with
  | qp =>
      have hd : (countDelta .qp (-1) u).totalQpDestroys = u.totalQpDestroys + 1 := by
        simp [countDelta, hone]
      rw [h] at hd
      simp at hd
  | mr =>
      have hd : (countDelta .mr (-1) u).totalMrDeregs = u.totalMrDeregs + 1 := by
        simp [countDelta, hone]
      rw [h] at hd
      simp at hd
  | cq =>
      have hd := cqCount_countDelta (-1) u
      rw [h] at hd
      simp at hd
  | pd =>
      have hd := pdCount_countDelta (-1) u
      rw [h] at hd
      simp at hd

/-! ## Charging and returning -/

/-- The tenant whose counter of this kind moved between two states of the
ledgers. -/
def chargedTenant (kind : ResourceKind) (before after : TenantIdx → Ledger) :
    Option TenantIdx :=
  (List.finRange maxTenants).find? fun t =>
    decide (count (after t).usage kind ≠ count (before t).usage kind)

/-- The charged tenant gets exactly one unit back, and the ledger of every
other tenant stays as it is. -/
def Returned (kind : ResourceKind) (charged : Option TenantIdx)
    (before after : TenantIdx → Ledger) : Prop :=
  (∀ t, charged = some t →
    (count (after t).usage kind).toInt = (count (before t).usage kind).toInt - 1) ∧
    ∀ t, charged ≠ some t → after t = before t

/-- The process resolves to the charged tenant, which is ACTIVE and whose
counter can be lowered; or nobody was charged, and nobody who could be is
found. -/
def Returnable (kind : ResourceKind) (charged : Option TenantIdx) (resolved : UInt32)
    (ls : TenantIdx → Ledger) : Prop :=
  match charged with
  | some t =>
      resolved ≠ 0 ∧ tenantIdx? resolved = some t ∧ (ls t).status = .active ∧
        Lowerable (ls t).usage kind
  | none => ∀ t, resolved ≠ 0 → tenantIdx? resolved = some t → (ls t).status ≠ .active

/-- With no ledger moved, nothing is returned. -/
theorem returned_self_iff (kind : ResourceKind) (charged : Option TenantIdx)
    (ls : TenantIdx → Ledger) : Returned kind charged ls ls ↔ charged = none := by
  constructor
  · intro h
    cases charged with
    | none => rfl
    | some t =>
        have hlow := h.1 t rfl
        omega
  · rintro rfl
    exact ⟨nofun, fun _ _ => rfl⟩

/-- Counting down for `t` returns the unit exactly if `t` was charged and can be
counted down. -/
theorem returned_countDown_iff (kind : ResourceKind) (charged : Option TenantIdx) (t : TenantIdx)
    (ls : TenantIdx → Ledger) :
    Returned kind charged ls
        (Function.update ls t (withUsage (ls t) (countDelta kind (-1) (ls t).usage))) ↔
      charged = some t ∧ Lowerable (ls t).usage kind := by
  constructor
  · intro h
    have hcharged : charged = some t := by
      by_contra hdiff
      have hsame := h.2 t hdiff
      rw [Function.update_self] at hsame
      exact countDelta_ne kind _ (congrArg Ledger.usage hsame)
    have hlow := h.1 t hcharged
    rw [Function.update_self] at hlow
    exact ⟨hcharged, (count_countDelta_iff kind _).mp hlow⟩
  · rintro ⟨rfl, hlowerable⟩
    constructor
    · intro t' heq
      obtain rfl := Option.some.inj heq
      rw [Function.update_self]
      exact (count_countDelta_iff kind _).mpr hlowerable
    · intro t' hdiff
      exact Function.update_of_ne (fun heq => hdiff (by rw [heq])) _ _

/-- Counting down for the resolved tenant returns the unit exactly if it is
returnable. -/
theorem returned_recount_iff (kind : ResourceKind) (charged : Option TenantIdx)
    (resolved : UInt32) (ls : TenantIdx → Ledger) :
    Returned kind charged ls (recount resolved kind (-1) ls) ↔
      Returnable kind charged resolved ls := by
  by_cases hcounted : ∃ t, resolved ≠ 0 ∧ tenantIdx? resolved = some t ∧ (ls t).status = .active
  · obtain ⟨t, hne, ht, hact⟩ := hcounted
    rw [recount_active hne ht hact, returned_countDown_iff]
    cases charged with
    | none =>
        constructor
        · intro h
          cases h.1
        · intro h
          exact absurd hact (h t hne ht)
    | some t' =>
        constructor
        · rintro ⟨heq, hlowerable⟩
          obtain rfl := Option.some.inj heq
          exact ⟨hne, ht, hact, hlowerable⟩
        · intro h
          obtain rfl : t' = t := Option.some.inj (h.2.1.symm.trans ht)
          exact ⟨rfl, h.2.2.2⟩
  · have hsame : recount resolved kind (-1) ls = ls := by
      unfold recount
      split
      · rfl
      · rename_i t ht
        rw [if_neg fun h => hcounted ⟨t, h.1, ht, h.2⟩]
    rw [hsame, returned_self_iff]
    cases charged with
    | none =>
        constructor
        · intro _ t hne ht hact
          exact hcounted ⟨t, hne, ht, hact⟩
        · intro _
          rfl
    | some t =>
        constructor
        · intro h
          cases h
        · intro h
          exact absurd ⟨t, h.1, h.2.1, h.2.2.1⟩ hcounted

/-! ## Destroying calls -/

/-- What a call learns from the system. -/
def HookCall.env : HookCall → HookEnv
  | .createQp env _ _ => env
  | .createQpEx env _ _ _ => env
  | .destroyQp env _ _ => env
  | .regMr env _ _ => env
  | .deregMr env _ _ _ => env
  | .createCq env _ => env
  | .destroyCq env _ _ => env
  | .allocPd env _ => env
  | .deallocPd env _ _ => env

/-- The view once the once-only initialization is over; the extended wrapper
does not start it. -/
def HookCall.entered (call : HookCall) (v : View) : View :=
  match call with
  | .createQpEx _ _ _ _ => v
  | _ => hooksInitOnce call.env v

/-- The tenant the caller resolves to. -/
def HookCall.resolved (call : HookCall) (v : View) : UInt32 :=
  (getCurrentTenantId call.env (call.entered v)).1

/-- The hook intercepts the call. -/
def HookCall.Intercepted (call : HookCall) (v : View) : Prop :=
  rdmaInterceptIsEnabled (call.entered v).proc = true

theorem rc_of_destroyed {object o : Nat} {r : DestroyResult}
    (h : (reportDestroy object r).destroyed = some o) : r.rc = 0 := by
  by_contra hrc
  simp [reportDestroy, hrc] at h

/-- A successful destroying call counts down for the tenant it resolves to. -/
theorem ledger_of_destroyed {call : HookCall} {v : View} {o : Nat}
    (hint : call.Intercepted v) (h : (call.exec v).1.destroyed = some o) :
    ledger (call.exec v).2.tenant = recount (call.resolved v) call.kind (-1) (ledger v.tenant) := by
  cases call with
  | createQp | createQpEx | regMr | createCq | allocPd => cases h
  | destroyQp env qp real =>
      exact (ibvDestroyQp_ledgers real hint).trans (if_pos (rc_of_destroyed h))
  | deregMr env mr length real =>
      exact (ibvDeregMr_ledgers length real hint).trans (if_pos (rc_of_destroyed h))
  | destroyCq env cq real =>
      exact (destroyCounted_ledgers .cq RealVerbs.destroyCq real hint).trans
        (if_pos (rc_of_destroyed h))
  | deallocPd env pd real =>
      exact (destroyCounted_ledgers .pd RealVerbs.deallocPd real hint).trans
        (if_pos (rc_of_destroyed h))

/-! ## Worlds that remember whom they charged -/

/-- Processes of any tenants, and for every object that exists the tenant that
was charged for it, if any. -/
structure ChargeWorld (ι : Type) extends HookWorld ι where
  charged : ResourceKind → ι × Nat → Option TenantIdx

/-- A hook call, a re-binding of a process, or a new status of a tenant. -/
inductive ChargeLabel (ι : Type) where
  | hook (i : ι) (call : HookCall)
  | bind (pid : Int) (tenantId : UInt32)
  | setStatus (tenantId : UInt32) (status : TenantStatus)

section World

variable {ι : Type} [DecidableEq ι]

/-- A created object is charged to the tenant whose counter the call moved. -/
def ChargeWorld.afterCall (w : ChargeWorld ι) (i : ι) (call : HookCall) : ChargeWorld ι :=
  let w' := w.toHookWorld.afterCall i call
  { w' with
    charged :=
      match (call.exec (w.view i)).1.created with
      | some o => Function.update w.charged call.kind (Function.update (w.charged call.kind) (i, o)
          (chargedTenant call.kind (ledger w.tenant) (ledger w'.tenant)))
      | none => w.charged }

/-- The steps of a run.  A process destroys objects of its own that exist, and
new objects have new handles; suspending and resuming are the changes of
status. -/
inductive ChargeStep : ChargeWorld ι → ChargeLabel ι → ChargeWorld ι → Prop
  | hook {w : ChargeWorld ι} {i : ι} {call : HookCall} : call.Intercepted (w.view i) →
      (∀ o, (call.exec (w.view i)).1.created = some o → (i, o) ∉ w.live call.kind) →
      (∀ o, (call.exec (w.view i)).1.destroyed = some o → (i, o) ∈ w.live call.kind) →
      ChargeStep w (.hook i call) (w.afterCall i call)
  | bind {w : ChargeWorld ι} {pid : Int} {tenantId : UInt32} :
      ChargeStep w (.bind pid tenantId)
        { w with tenant := (tenantBindProcess pid tenantId w.tenant).2 }
  | setStatus {w : ChargeWorld ι} {tenantId : UInt32} {status : TenantStatus} :
      status ≠ .inactive →
      ChargeStep w (.setStatus tenantId status)
        { w with tenant := (tenantSetStatus tenantId status w.tenant).2 }

/-- Some call of the run created the object, and `charged` is whom that call
charged. -/
def ChargedAtCreation (w₀ : ChargeWorld ι) (labels : List (ChargeLabel ι)) (kind : ResourceKind)
    (i : ι) (o : Nat) (charged : Option TenantIdx) : Prop :=
  ∃ earlier w₁ call later, labels = earlier ++ .hook i call :: later ∧
    Run ChargeStep w₀ earlier w₁ ∧ call.kind = kind ∧
    (call.exec (w₁.view i)).1.created = some o ∧
    charged = chargedTenant kind (ledger w₁.tenant) (ledger (call.exec (w₁.view i)).2.tenant)

theorem ChargedAtCreation.later {w₀ : ChargeWorld ι} {labels : List (ChargeLabel ι)}
    {kind : ResourceKind} {i : ι} {o : Nat} {charged : Option TenantIdx}
    (h : ChargedAtCreation w₀ labels kind i o charged) (label : ChargeLabel ι) :
    ChargedAtCreation w₀ (labels ++ [label]) kind i o charged := by
  obtain ⟨earlier, w₁, call, later, rfl, hrest⟩ := h
  exact ⟨earlier, w₁, call, later ++ [label], by simp, hrest⟩

variable {w₀ w w' : ChargeWorld ι} {labels : List (ChargeLabel ι)}

/-- An object that exists after a call existed before and is charged as before,
or is the one the call created. -/
theorem live_afterCall_cases {i j : ι} {call : HookCall} {kind : ResourceKind} {o : Nat}
    (hmem : (i, o) ∈ (w.afterCall j call).live kind) :
    ((i, o) ∈ w.live kind ∧ (w.afterCall j call).charged kind (i, o) = w.charged kind (i, o)) ∨
      (i = j ∧ call.kind = kind ∧ (call.exec (w.view j)).1.created = some o ∧
        (w.afterCall j call).charged kind (i, o) =
          chargedTenant kind (ledger w.tenant) (ledger (call.exec (w.view j)).2.tenant)) := by
  cases hcreated : (call.exec (w.view j)).1.created with
  | none =>
      have hcharged : (w.afterCall j call).charged = w.charged := by
        simp [ChargeWorld.afterCall, hcreated]
      exact .inl ⟨(mem_live_afterCall hmem).resolve_right (by simp [hcreated]), by rw [hcharged]⟩
  | some new =>
      have hcharged : (w.afterCall j call).charged = Function.update w.charged call.kind
          (Function.update (w.charged call.kind) (j, new)
            (chargedTenant call.kind (ledger w.tenant)
              (ledger (call.exec (w.view j)).2.tenant))) := by
        simp only [ChargeWorld.afterCall, hcreated]
        rfl
      change (i, o) ∈ Function.update w.live call.kind _ kind at hmem
      rw [hcharged]
      by_cases hkind : kind = call.kind
      · subst hkind
        rw [Function.update_self] at hmem ⊢
        simp only [settleLive, hcreated, Finset.mem_insert] at hmem
        by_cases hnew : (i, o) = (j, new)
        · obtain ⟨rfl, rfl⟩ := Prod.mk.inj hnew
          exact .inr ⟨rfl, rfl, rfl, Function.update_self _ _ _⟩
        · exact .inl ⟨hmem.resolve_left hnew, Function.update_of_ne hnew _ _⟩
      · rw [Function.update_of_ne hkind] at hmem ⊢
        exact .inl ⟨hmem, rfl⟩

/-- **What the world remembers is what happened.** -/
theorem charged_of_live (hempty : ∀ kind, w₀.live kind = ∅)
    (hrun : Run ChargeStep w₀ labels w) :
    ∀ kind i o, (i, o) ∈ w.live kind →
      ChargedAtCreation w₀ labels kind i o (w.charged kind (i, o)) := by
  induction hrun with
  | start =>
      intro kind i o hmem
      rw [hempty kind] at hmem
      exact absurd hmem (Finset.notMem_empty _)
  | @snoc labels label w₁ w₂ hbefore hstep ih =>
      intro kind i o hmem
      cases hstep with
      | bind | setStatus => exact (ih kind i o hmem).later _
      | @hook j call _ _ _ =>
          rcases live_afterCall_cases hmem with ⟨hold, hsame⟩ | ⟨rfl, hkind, hnew, hcharged⟩
          · rw [hsame]
            exact (ih kind i o hold).later _
          · exact ⟨labels, w₁, call, [], rfl, hbefore, hkind, hnew, hcharged⟩

/-- **Quota returned.**  In every run, a successful destroying call gives the
unit back to the tenant that was charged when the object was created, and
touches no other, exactly if it is returnable in the state before. -/
theorem quota_returned_iff (hempty : ∀ kind, w₀.live kind = ∅)
    (hrun : Run ChargeStep w₀ labels w) {i : ι} {call : HookCall} {o : Nat}
    (hstep : ChargeStep w (.hook i call) w')
    (hdestroyed : (call.exec (w.view i)).1.destroyed = some o) :
    ChargedAtCreation w₀ labels call.kind i o (w.charged call.kind (i, o)) ∧
      (Returned call.kind (w.charged call.kind (i, o)) (ledger w.tenant) (ledger w'.tenant) ↔
        Returnable call.kind (w.charged call.kind (i, o)) (call.resolved (w.view i))
          (ledger w.tenant)) := by
  cases hstep with
  | hook hint _ hexisting =>
      refine ⟨charged_of_live hempty hrun _ i o (hexisting o hdestroyed), ?_⟩
      have hledger : ledger (w.afterCall i call).tenant =
          recount (call.resolved (w.view i)) call.kind (-1) (ledger w.tenant) :=
        ledger_of_destroyed hint hdestroyed
      rw [hledger]
      exact returned_recount_iff _ _ _ _

end World

/-! ## A process that is re-bound -/

/-- One moved ledger is the charged one. -/
theorem chargedTenant_update {kind : ResourceKind} {ls : TenantIdx → Ledger} {t : TenantIdx}
    {l : Ledger} (h : count l.usage kind ≠ count (ls t).usage kind) :
    chargedTenant kind ls (Function.update ls t l) = some t := by
  unfold chargedTenant
  cases hfind : (List.finRange maxTenants).find? fun t' =>
      decide (count (Function.update ls t l t').usage kind ≠ count (ls t').usage kind) with
  | none =>
      have hnone := List.find?_eq_none.mp hfind t (List.mem_finRange t)
      simp [h] at hnone
  | some t' =>
      have hmoved := List.find?_some hfind
      by_cases ht : t' = t
      · rw [ht]
      · simp [Function.update_of_ne ht] at hmoved

/-- Process 100, bound to tenant 1, next to tenant 2. -/
def chargeStart : ChargeWorld Unit :=
  ⟨⟨fun _ => settledProcess 100, SharedMemory.zeroed, twoTenants, fun _ => ∅⟩, fun _ _ => none⟩

def createCq7 : HookCall := .createCq quietEnv (some 7)

def destroyCq7 : HookCall := .destroyCq quietEnv 7 0

/-- The process has created CQ 7 and is bound to tenant `n`. -/
structure HoldsCq (n : UInt32) (w : ChargeWorld Unit) : Prop
    extends SoloBound n w.toHookWorld where
  live : w.live .cq = {((), 7)}
  charged : w.charged .cq ((), 7) = some 1
  ledgers : ledger w.tenant = Function.update (ledger twoTenants) 1
    (withUsage (ledger twoTenants 1) (countDelta .cq 1 (ledger twoTenants 1).usage))

theorem twoTenants_ledger_one : ledger twoTenants 1 = ⟨.active, defaultQuota, .zero⟩ := by
  rw [twoTenants_eq, soloTenant_eq (by decide)]
  rfl

theorem twoTenants_ledger_two : ledger twoTenants 2 = ⟨.active, defaultQuota, .zero⟩ := by
  rw [twoTenants_eq]
  rfl

theorem twoTenants_get : tenantGetProcessTenant 100 twoTenants = some 1 := by
  have hmap : twoTenants.pidMappings = (soloTenant 100 defaultQuota).pidMappings := by
    rw [twoTenants_eq]
    rfl
  rw [tenantGetProcessTenant_of_mappings hmap]
  exact soloTenant_get (by decide) defaultQuota

/-- Creating the CQ charges tenant 1. -/
theorem createCq7_step : ∃ w, ChargeStep chargeStart (.hook () createCq7) w ∧ HoldsCq 1 w := by
  have hstart : SoloBound 1 chargeStart.toHookWorld := ⟨rfl, twoTenants_get⟩
  have hexec : createCq7.exec (chargeStart.view ()) = _ := hstart.createCq (by decide) 7
  have hledgers := ledgers_rewriteUsage tenantIdx?_one
    (congrArg Ledger.status twoTenants_ledger_one) (countDelta .cq 1)
  refine ⟨chargeStart.afterCall () createCq7, .hook ?_ ?_ ?_, ?_⟩
  · exact hstart.resolves.1
  · intro o _
    exact Finset.notMem_empty _
  · intro o h
    rw [hexec] at h
    cases h
  · refine ⟨hstart.afterCreateCq (by decide) 7, ?_, ?_, ?_⟩
    · have hlive : (chargeStart.afterCall () createCq7).live .cq =
          settleLive () (createCq7.exec (chargeStart.view ())).1 ∅ := rfl
      rw [hlive, hexec]
      rfl
    · have hcharged : (chargeStart.afterCall () createCq7).charged .cq ((), 7) =
          chargedTenant .cq (ledger twoTenants)
            (ledger (rewriteUsage 1 (countDelta .cq 1) twoTenants)) := by
        simp only [ChargeWorld.afterCall, HookWorld.afterCall, hexec]
        rfl
      rw [hcharged, hledgers]
      apply chargedTenant_update
      rw [twoTenants_ledger_one]
      decide
    · simp only [ChargeWorld.afterCall, HookWorld.afterCall, hexec]
      exact hledgers

/-- Destroying the CQ counts down for the tenant the process is bound to. -/
theorem HoldsCq.destroy {n : UInt32} {w : ChargeWorld Unit} (h : HoldsCq n w) (hne : n ≠ 0) :
    ∃ w', ChargeStep w (.hook () destroyCq7) w' ∧
      (destroyCq7.exec (w.view ())).1.destroyed = some 7 ∧
      w'.tenant = rewriteUsage n (countDelta .cq (-1)) w.tenant := by
  have hexec : destroyCq7.exec (w.view ()) = _ := h.destroyCq hne 7
  refine ⟨w.afterCall () destroyCq7, .hook ?_ ?_ ?_, by rw [hexec], ?_⟩
  · exact h.resolves.1
  · intro o hcreated
    rw [hexec] at hcreated
    cases hcreated
  · intro o hdestroyed
    rw [hexec] at hdestroyed
    obtain rfl := Option.some.inj hdestroyed
    show ((), 7) ∈ w.live .cq
    rw [h.live]
    exact Finset.mem_singleton_self _
  · simp [ChargeWorld.afterCall, HookWorld.afterCall, hexec]

/-- A process that stays where it is gives the unit back. -/
theorem cq_returned : ∃ w w',
    Run ChargeStep chargeStart [.hook () createCq7] w ∧
      ChargeStep w (.hook () destroyCq7) w' ∧ w.charged .cq ((), 7) = some 1 ∧
      Returned .cq (w.charged .cq ((), 7)) (ledger w.tenant) (ledger w'.tenant) := by
  obtain ⟨w, hstep, hholds⟩ := createCq7_step
  obtain ⟨w', hdestroy, hdestroyed, _⟩ := hholds.destroy (by decide)
  have hrun : Run ChargeStep chargeStart [.hook () createCq7] w := Run.start.snoc hstep
  have hreturned := (quota_returned_iff (fun _ => rfl) hrun hdestroy hdestroyed).2
  refine ⟨w, w', hrun, hdestroy, hholds.charged, hreturned.mpr ?_⟩
  have hresolved : destroyCq7.resolved (w.view ()) = 1 := hholds.resolves.2
  show Returnable .cq (w.charged .cq ((), 7)) (destroyCq7.resolved (w.view ())) (ledger w.tenant)
  rw [hholds.charged, hresolved, hholds.ledgers]
  refine ⟨by decide, tenantIdx?_one, ?_, ?_⟩
  · rw [Function.update_self, twoTenants_ledger_one]
    rfl
  · rw [Function.update_self, twoTenants_ledger_one]
    show -2 ^ 31 < ((0 : Int32) + 1).toInt
    decide

/-- A process that is re-bound in between returns the unit of tenant 1 to
tenant 2, whose count becomes negative. -/
theorem cq_returned_elsewhere : ∃ w w',
    Run ChargeStep chargeStart [.hook () createCq7, .bind 100 2] w ∧
      ChargeStep w (.hook () destroyCq7) w' ∧
      (destroyCq7.exec (w.view ())).1.destroyed = some 7 ∧
      w.charged .cq ((), 7) = some 1 ∧
      (ledger w'.tenant 1).usage.cqCount = 1 ∧ (ledger w'.tenant 2).usage.cqCount = -1 := by
  obtain ⟨w₁, hstep, hholds⟩ := createCq7_step
  have hfirst : (ledger w₁.tenant 1).usage.cqCount = 1 := by
    rw [hholds.ledgers, Function.update_self, twoTenants_ledger_one]
    rfl
  have hsecond : ledger w₁.tenant 2 = ⟨.active, defaultQuota, .zero⟩ := by
    rw [hholds.ledgers, Function.update_of_ne (by decide), twoTenants_ledger_two]
  have htwo : ActiveTenant w₁.tenant 2 := ⟨2, by decide, congrArg Ledger.status hsecond⟩
  have hbound := (get_after_bind ⟨htwo, .inl (mapped_of_get hholds.get)⟩).2
  have hrebound : HoldsCq 2 { w₁ with tenant := (tenantBindProcess 100 2 w₁.tenant).2 } :=
    ⟨⟨hholds.proc, hbound⟩, hholds.live, hholds.charged,
      (ledger_bind 100 2 w₁.tenant).trans hholds.ledgers⟩
  obtain ⟨w', hdestroy, hdestroyed, htenant⟩ := hrebound.destroy (by decide)
  refine ⟨_, w', (Run.start.snoc hstep).snoc .bind, hdestroy, hdestroyed, hholds.charged, ?_⟩
  have hledgers : ledger w'.tenant = Function.update (ledger w₁.tenant) 2
      (withUsage (ledger w₁.tenant 2) (countDelta .cq (-1) (ledger w₁.tenant 2).usage)) := by
    have hbind := ledger_bind 100 2 w₁.tenant
    have hact : ((tenantBindProcess 100 2 w₁.tenant).2.tenants 2).status = .active :=
      (congrArg (fun ls : TenantIdx → Ledger => (ls 2).status) hbind).trans
        (congrArg Ledger.status hsecond)
    have hall := ledgers_rewriteUsage (show tenantIdx? 2 = some 2 by decide) hact
      (countDelta .cq (-1))
    rw [hbind] at hall
    rw [htenant]
    exact hall
  rw [hledgers]
  refine ⟨?_, ?_⟩
  · rw [Function.update_of_ne (by decide)]
    exact hfirst
  · rw [Function.update_self, withUsage_usage, cqCount_countDelta, hsecond]
    decide

end MtRdma.Ports.RdmaHooks
