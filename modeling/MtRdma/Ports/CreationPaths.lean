import MtRdma.Ports.HookFrame
import MtRdma.Ports.HookPieces
import MtRdma.Ports.QpLedger

/-!
# The two QP creation paths

`ibv_create_qp` and `create_qp_ex_wrapper` are two copies of one procedure.
After their restriction checks both run the same code, so whether they agree is
a question about the checks alone: the extended one has no work-request limits.
A request above a limit is denied on the plain path, while the extended path
goes on to the tenant step, lowers the request and creates the QP.

The two results are compared on what the application and the rest of the
system can see of them (`Agree`).  Both look at three fields of the request and
store into two of them, in place, before they hand the same structure on; the
model keeps the whole request.
-/

namespace MtRdma.Ports.CreationPaths

open Verified.SlotScan
open RdmaHooks
open HookPieces (SameAccounts)
open SharedMemory
open SharedMemoryTenant hiding tenantStep

/-! ## Requests -/

/-- `struct ibv_qp_cap`. -/
structure QpCap where
  maxSendWr : UInt32
  maxRecvWr : UInt32
  maxSendSge : UInt32
  maxRecvSge : UInt32
  maxInlineData : UInt32
  deriving Repr, DecidableEq

/-- The fields of `struct ibv_qp_init_attr` that the hooks only hand on; a
pointer is its address. -/
structure PlainFields where
  qpContext : Nat
  sendCq : Nat
  recvCq : Nat
  srq : Nat
  sqSigAll : Int32
  deriving Repr, DecidableEq

/-- Those of `struct ibv_qp_init_attr_ex`. -/
structure ExtendedFields extends PlainFields where
  compMask : UInt32
  pd : Nat
  xrcd : Nat
  createFlags : UInt32
  maxTsoHeader : UInt16
  rwqIndTbl : Nat
  rxHashConf : List UInt8
  sourceQpn : UInt32
  sendOpsFlags : UInt64
  deriving Repr, DecidableEq

/-- A request of either kind. -/
structure InitAttr (ω : Type) where
  qpType : QpType
  cap : QpCap
  other : ω
  deriving Repr, DecidableEq

variable {ω : Type}

namespace InitAttr

/-- What the hooks look at. -/
def seen (request : InitAttr ω) : QpInitAttr :=
  ⟨request.qpType, request.cap.maxSendWr, request.cap.maxRecvWr⟩

/-- The request with what the hooks looked at replaced. -/
def stored (request : InitAttr ω) (attr : QpInitAttr) : InitAttr ω :=
  { request with
    qpType := attr.qpType
    cap := { request.cap with maxSendWr := attr.maxSendWr, maxRecvWr := attr.maxRecvWr } }

end InitAttr

/-- The request as `ibv_create_qp`. -/
def createPlain (env : HookEnv) (provider : InitAttr ω → Option Nat) (request : InitAttr ω)
    (v : View) : CreateQpResult × View :=
  ibvCreateQp env (fun attr => provider (request.stored attr)) request.seen v

/-- The request as `create_qp_ex` on a context; `provider` is given the
callback that the wrapper has found. -/
def createExtended (env : HookEnv) (provider : Nat → InitAttr ω → Option Nat) (context : Nat)
    (request : InitAttr ω) (v : View) : CreateQpResult × View :=
  createQpExWrapper env (fun original attr => provider original (request.stored attr))
    context request.seen v

/-- The request that reached the provider, if one did. -/
def passed (request : InitAttr ω) (r : CreateQpResult) : Option (InitAttr ω) :=
  r.invoked.map request.stored

/-- The two paths decide alike, pass the same request on, and leave the same
private counters, process table and usage of every tenant. -/
structure Agree (request : InitAttr ω) (plain extended : CreateQpResult × View) : Prop where
  qp : plain.1.qp = extended.1.qp
  errno : plain.1.errno = extended.1.errno
  passed : passed request plain.1 = passed request extended.1
  intercept : plain.2.proc.intercept = extended.2.proc.intercept
  shm : plain.2.shm = extended.2.shm
  usage : ∀ t, (ledger plain.2.tenant t).usage = (ledger extended.2.tenant t).usage

theorem Agree.of_eq {request : InitAttr ω} {x y : CreateQpResult × View} (h : x = y) :
    Agree request x y := by
  subst h
  exact ⟨rfl, rfl, rfl, rfl, rfl, fun _ => rfl⟩

/-- The process can issue a request both ways: it is initialized, the plain
verb was found, and the context was registered with its callback. -/
structure Issuable (context original : Nat) (p : Process) : Prop where
  hooksInit : p.hooksInit = true
  createQp : p.realVerbs.createQp = true
  registered : findOriginalCreateQpEx context p = some original

/-! ## Where the checks differ -/

/-- The request stays within both work-request limits. -/
def WithinWrLimits (config : InterceptConfig) (attr : QpInitAttr) : Prop :=
  attr.maxSendWr ≤ config.maxSendWrLimit ∧ attr.maxRecvWr ≤ config.maxRecvWrLimit

instance (config : InterceptConfig) (attr : QpInitAttr) :
    Decidable (WithinWrLimits config attr) := by
  unfold WithinWrLimits
  infer_instance

/-- The plain check is the extended one and the work-request limits. -/
theorem checkQpCreationRestrictions_iff_extended (attr : QpInitAttr) (v : View) :
    checkQpCreationRestrictions attr v = true ↔
      checkQpCreationRestrictionsExtended attr v = true ∧
        (v.proc.intercept.config.enableQpControl = false ∨
          WithinWrLimits v.proc.intercept.config attr) := by
  unfold checkQpCreationRestrictions checkQpCreationRestrictionsExtended WithinWrLimits
  by_cases hcontrol : v.proc.intercept.config.enableQpControl = false
  · simp [hcontrol]
  · rw [if_neg hcontrol, if_neg hcontrol]
    simp only [Bool.and_eq_true, Bool.not_eq_true', decide_eq_false_iff_not, UInt32.not_lt]
    tauto

section Paths

variable {env : HookEnv} {provider : InitAttr ω → Option Nat} {request : InitAttr ω} {v : View}
  {context original : Nat}

/-- Past its check the plain path is the common one. -/
theorem createPlain_eq (h : Issuable context original v.proc)
    (henabled : rdmaInterceptIsEnabled v.proc = true) :
    createPlain env provider request v =
      if checkQpCreationRestrictions request.seen v = false then (⟨none, some .eperm, none⟩, v)
      else createForTenant env (fun attr => provider (request.stored attr)) request.seen v := by
  unfold createPlain ibvCreateQp
  simp only [hooksInitOnce_of_init env h.hooksInit]
  rw [if_neg (by simp [h.createQp]), if_neg (by simp [henabled])]

/-- So is the extended one past its own. -/
theorem createExtended_eq (h : Issuable context original v.proc)
    (henabled : rdmaInterceptIsEnabled v.proc = true) :
    createExtended env (fun _ => provider) context request v =
      if checkQpCreationRestrictionsExtended request.seen v = false then
        (⟨none, some .eperm, none⟩, v)
      else createForTenant env (fun attr => provider (request.stored attr)) request.seen v := by
  unfold createExtended createQpExWrapper
  simp only [h.registered]
  rw [if_neg (by simp [henabled])]

/-- Without interception both hand the request to the provider. -/
theorem paths_eq_of_disabled (h : Issuable context original v.proc)
    (hdisabled : rdmaInterceptIsEnabled v.proc = false) :
    createPlain env provider request v =
      createExtended env (fun _ => provider) context request v := by
  unfold createPlain createExtended ibvCreateQp createQpExWrapper
  simp only [hooksInitOnce_of_init env h.hooksInit, h.registered]
  rw [if_neg (by simp [h.createQp]), if_pos hdisabled, if_pos hdisabled]

end Paths

/-! ## A refusal by the tenant -/

/-- The tenant the process belongs to refuses another QP, and its recorded
count needs no clamping to see that. -/
def TenantRefuses (tenantId : UInt32) (ls : TenantIdx → Ledger) : Prop :=
  tenantId ≠ 0 ∧ ∀ t, tenantIdx? tenantId = some t → (ls t).status = .active →
    0 ≤ (ls t).usage.qpCount.toInt ∧
      (ls t).quota.maxQpPerTenant ≤ (ls t).usage.qpCount.toUInt32

/-- The clamp of the reservation is the identity exactly on counts that are
not negative. -/
theorem clampQp_eq_self_iff (u : TenantResourceUsage) :
    clampQp u = u ↔ 0 ≤ u.qpCount.toInt := by
  constructor
  · intro h
    by_contra hneg
    have hclamped : (clampQp u).qpCount = 0 := by
      unfold clampQp
      rw [if_pos (Int32.lt_iff_toInt_lt.mpr (by simpa using hneg))]
    rw [h] at hclamped
    exact hneg (by rw [hclamped]; decide)
  · exact clampQp_of_nonneg

/-- A refusal that has nothing to clamp. -/
theorem clamped_refusal_iff (u : TenantResourceUsage) (quota : UInt32) :
    (quota ≤ (clampQp u).qpCount.toUInt32 ∧ clampQp u = u) ↔
      (0 ≤ u.qpCount.toInt ∧ quota ≤ u.qpCount.toUInt32) := by
  rw [clampQp_eq_self_iff]
  constructor
  · rintro ⟨hquota, hnonneg⟩
    rw [clampQp_of_nonneg hnonneg] at hquota
    exact ⟨hnonneg, hquota⟩
  · rintro ⟨hnonneg, hquota⟩
    rw [clampQp_of_nonneg hnonneg]
    exact ⟨hquota, hnonneg⟩

section Reservation

variable {tenantId : UInt32} {t : TenantIdx} {s : TenantSharedMemory}

theorem tenantTryAllocateQp_refused_iff (ht : tenantIdx? tenantId = some t)
    (hact : (s.tenants t).status = .active) :
    ((tenantTryAllocateQp tenantId s).1 = false ∧
      ∀ t', (ledger (tenantTryAllocateQp tenantId s).2 t').usage = (ledger s t').usage) ↔
    (s.tenants t).quota.maxQpPerTenant ≤ (clampQp (s.tenants t).usage).qpCount.toUInt32 ∧
      clampQp (s.tenants t).usage = (s.tenants t).usage := by
  rw [tenantTryAllocateQp_active ht hact]
  by_cases hquota :
      (s.tenants t).quota.maxQpPerTenant ≤ (clampQp (s.tenants t).usage).qpCount.toUInt32
  · rw [if_pos hquota]
    constructor
    · rintro ⟨-, hsame⟩
      have hclamp := hsame t
      rw [ledger_setUsage_self] at hclamp
      exact ⟨hquota, hclamp⟩
    · rintro ⟨-, hclamp⟩
      refine ⟨rfl, fun t' => ?_⟩
      rw [ledger_setUsage]
      by_cases ht' : t' = t
      · subst ht'
        rw [Function.update_self]
        exact hclamp
      · rw [Function.update_of_ne ht']
  · rw [if_neg hquota]
    constructor
    · rintro ⟨hadmitted, -⟩
      cases hadmitted
    · rintro ⟨hrefused, -⟩
      exact absurd hrefused hquota

/-- A reservation is refused and leaves every usage record as it was exactly
for a tenant that refuses. -/
theorem tenantTryAllocateQp_refuses_iff (hne : tenantId ≠ 0) (s : TenantSharedMemory) :
    ((tenantTryAllocateQp tenantId s).1 = false ∧
      ∀ t, (ledger (tenantTryAllocateQp tenantId s).2 t).usage = (ledger s t).usage) ↔
    TenantRefuses tenantId (ledger s) := by
  unfold TenantRefuses
  cases ht : tenantIdx? tenantId with
  | none => simp [tenantTryAllocateQp, ht, hne]
  | some t =>
      by_cases hact : (s.tenants t).status = .active
      · rw [tenantTryAllocateQp_refused_iff ht hact, clamped_refusal_iff]
        constructor
        · intro hrefuses
          refine ⟨hne, fun t' ht' _ => ?_⟩
          cases ht'
          exact hrefuses
        · rintro ⟨-, hall⟩
          exact hall t rfl hact
      · have hrefused : tenantTryAllocateQp tenantId s = (false, s) := by
          simp [tenantTryAllocateQp, ht, hact]
        rw [hrefused]
        constructor
        · rintro -
          refine ⟨hne, fun t' ht' hactive => ?_⟩
          cases ht'
          exact absurd hactive hact
        · rintro -
          exact ⟨rfl, fun _ => rfl⟩

end Reservation

/-- The tenant step denies the creation without a trace exactly if the
resolved tenant refuses. -/
theorem tenantStep_refuses_iff (env : HookEnv) (v : View) :
    ((tenantStep env v).1 = none ∧
      ∀ t, (ledger (tenantStep env v).2.tenant t).usage = (ledger v.tenant t).usage) ↔
    TenantRefuses (getCurrentTenantId env v).1 (ledger v.tenant) := by
  by_cases hne : (getCurrentTenantId env v).1 = 0
  · have hstep : (tenantStep env v).1 = some (false, (getCurrentTenantId env v).1) := by
      unfold tenantStep
      simp [hne]
    simp [hstep, TenantRefuses, hne]
  · rw [← ledger_getCurrentTenantId env v, ← tenantTryAllocateQp_refuses_iff hne,
      tenantStep_bound hne]
    simp only [ite_eq_right_iff, reduceCtorEq, imp_false, Bool.not_eq_true]

/-! ## When the paths agree -/

/-- The requests that both paths treat alike. -/
def PathsMeet (env : HookEnv) (request : InitAttr ω) (v : View) : Prop :=
  rdmaInterceptIsEnabled v.proc = false ∨
  v.proc.intercept.config.enableQpControl = false ∨
  WithinWrLimits v.proc.intercept.config request.seen ∨
  checkQpCreationRestrictionsExtended request.seen v = false ∨
  TenantRefuses (getCurrentTenantId env v).1 (ledger v.tenant)

/-- A denial by the plain check agrees with the extended path exactly if that
path denies too, and leaves no trace. -/
theorem agree_denied_iff {env : HookEnv} {real : QpInitAttr → Option Nat}
    {request : InitAttr ω} {v : View} :
    Agree request (⟨none, some .eperm, none⟩, v) (createForTenant env real request.seen v) ↔
      TenantRefuses (getCurrentTenantId env v).1 (ledger v.tenant) := by
  rw [← tenantStep_refuses_iff]
  have haccounts := SameAccounts.tenantStep env v
  unfold createForTenant
  cases hstep : (tenantStep env v).1 with
  | none =>
      constructor
      · intro hagree
        exact ⟨rfl, fun t => (hagree.usage t).symm⟩
      · rintro ⟨-, hsame⟩
        exact ⟨rfl, rfl, rfl, haccounts.intercept.symm, haccounts.shm.symm,
          fun t => (hsame t).symm⟩
  | some decision =>
      constructor
      · intro hagree
        have hpassed := hagree.passed
        unfold createAndSettle at hpassed
        simp only at hpassed
        -- Either answer of the provider records the attributes it was given.
        split at hpassed <;> cases hpassed
      · rintro ⟨hnone, -⟩
        cases hnone

/-- A request is treated alike on both paths exactly if interception or QP
control is off, the request is within the work-request limits, or both paths
deny it for another reason. -/
theorem creation_paths_agree_iff (env : HookEnv) (provider : InitAttr ω → Option Nat)
    (context original : Nat) (request : InitAttr ω) (v : View)
    (h : Issuable context original v.proc) :
    Agree request (createPlain env provider request v)
        (createExtended env (fun _ => provider) context request v) ↔
      PathsMeet env request v := by
  unfold PathsMeet
  by_cases henabled : rdmaInterceptIsEnabled v.proc = true
  · rw [createPlain_eq h henabled, createExtended_eq h henabled]
    have hchecks := checkQpCreationRestrictions_iff_extended request.seen v
    by_cases hplain : checkQpCreationRestrictions request.seen v = false
    · by_cases hextended : checkQpCreationRestrictionsExtended request.seen v = false
      · rw [if_pos hplain, if_pos hextended]
        constructor
        · intro _
          exact .inr (.inr (.inr (.inl hextended)))
        · intro _
          exact .of_eq rfl
      · -- Only the plain check denies: the request is above a work-request limit.
        rw [if_pos hplain, if_neg hextended, agree_denied_iff]
        simp only [Bool.not_eq_false] at hextended
        have habove := mt hchecks.mpr (by simp [hplain])
        simp only [hextended, true_and] at habove
        simp only [henabled, hextended]
        tauto
    · simp only [Bool.not_eq_false] at hplain
      have hmeet := hchecks.mp hplain
      rw [if_neg (by rw [hplain]; decide), if_neg (by rw [hmeet.1]; decide)]
      constructor
      · intro _
        tauto
      · intro _
        exact .of_eq rfl
  · have hdisabled : rdmaInterceptIsEnabled v.proc = false := by simpa using henabled
    constructor
    · intro _
      exact .inl hdisabled
    · intro _
      exact .of_eq (paths_eq_of_disabled h hdisabled)

/-! ## One process, two requests -/

/-- An unbound process under QP control that has opened one context. -/
def controlledProcess : Process :=
  { settledProcess 100 with
    intercept := ⟨true, { InterceptConfig.default with enableQpControl := true }, 0, 0, 0⟩
    verbCtxTable := [⟨1, 7⟩] }

def controlledView : View := ⟨controlledProcess, SharedMemory.zeroed, SharedMemoryTenant.zeroed⟩

/-- An RC request of the given send depth. -/
def sendRequest (maxSendWr : UInt32) (other : ω) : InitAttr ω :=
  ⟨.rc, ⟨maxSendWr, 1, 1, 1, 0⟩, other⟩

def plainFields : PlainFields := ⟨0, 1, 1, 0, 0⟩

theorem controlledProcess_issuable : Issuable 1 7 controlledProcess := ⟨rfl, rfl, rfl⟩

theorem creation_paths_agree_iff_at_limit :
    Issuable 1 7 controlledView.proc ∧
      Agree (sendRequest 1024 plainFields)
        (createPlain quietEnv (fun _ => some 5) (sendRequest 1024 plainFields) controlledView)
        (createExtended quietEnv (fun _ _ => some 5) 1 (sendRequest 1024 plainFields)
          controlledView) :=
  ⟨controlledProcess_issuable,
    (creation_paths_agree_iff quietEnv (fun _ => some 5) 1 7 (sendRequest 1024 plainFields)
      controlledView controlledProcess_issuable).mpr (.inr (.inr (.inl (by decide))))⟩

/-- A fresh table has no entry of the process and no QPs at all. -/
theorem controlledView_extended (maxSendWr : UInt32) :
    checkQpCreationRestrictionsExtended ⟨.rc, maxSendWr, 1⟩ controlledView = true := by
  have hlookup : lookup SharedMemory.zeroed.processPids 100 = none :=
    (lookup_eq_none_iff _ _).mpr fun _ => show (0 : Int) ≠ 100 by decide
  have hown : shmGetProcessResources 100 SharedMemory.zeroed = some .zero := by
    simp [shmGetProcessResources, hlookup]
  have hprocess : processLimitOk controlledView = true := by
    have hread : shmGetProcessResources controlledView.proc.pid controlledView.shm = some .zero :=
      hown
    unfold processLimitOk
    rw [if_pos (show controlledView.proc.shmMapped = true from rfl), hread]
    decide
  show (true && processLimitOk controlledView && globalLimitOk controlledView) = true
  rw [hprocess]
  decide

theorem controlledView_unbound :
    tenantStep quietEnv controlledView = (some (false, 0), controlledView) := by
  have hsettled : Settled quietEnv controlledView.proc := ⟨rfl, rfl, rfl, rfl⟩
  have hget : tenantGetProcessTenant controlledView.proc.pid controlledView.tenant = none :=
    get_zeroed (by decide)
  unfold tenantStep
  simp only [hsettled.getCurrentTenantId, hget, Option.getD_none]
  rw [if_neg (by simp)]

/-- The extended path creates with 1024 send work requests what asks for
2000. -/
theorem createExtended_lowered (other : ω) :
    (createExtended quietEnv (fun _ _ => some 5) 1 (sendRequest 2000 other) controlledView).1 =
      ⟨some 5, none, some ⟨.rc, 1024, 1⟩⟩ := by
  have hextended : checkQpCreationRestrictionsExtended (sendRequest 2000 other).seen
      controlledView = true := controlledView_extended 2000
  rw [createExtended_eq controlledProcess_issuable rfl, if_neg (by rw [hextended]; decide)]
  unfold createForTenant
  rw [controlledView_unbound]
  rfl

/-- A request for 2000 send work requests is denied on the plain path and
created, with 1024 of them, on the extended one. -/
theorem extended_path_bypasses_limit :
    (createPlain quietEnv (fun _ => some 5) (sendRequest 2000 plainFields) controlledView).1 =
        ⟨none, some .eperm, none⟩ ∧
      (createExtended quietEnv (fun _ _ => some 5) 1 (sendRequest 2000 plainFields)
        controlledView).1 = ⟨some 5, none, some (sendRequest 1024 plainFields).seen⟩ := by
  have habove : checkQpCreationRestrictions (sendRequest 2000 plainFields).seen controlledView =
      false := by
    rw [Bool.eq_false_iff, Ne, checkQpCreationRestrictions_iff_extended]
    rintro ⟨-, hmeet⟩
    exact absurd hmeet (by decide)
  constructor
  · rw [createPlain_eq controlledProcess_issuable rfl, if_pos habove]
  · exact createExtended_lowered plainFields

end MtRdma.Ports.CreationPaths
