import MtRdma.Verified.Noninterference
import MtRdma.Verified.Runs
import MtRdma.Ports.TenantLedger

/-!
# Isolation of the tenants from each other

All tenants live in one segment, next to one pid table and two global
counters.  Seen through the ledgers the segment is nevertheless a family of
independent machines: a call that names a tenant answers from that tenant's
ledger and moves that ledger alone (`storeCall_refines`), and the calls that
name no tenant, or only move pids, move none.

The abstract machine is `Ledger.call`.  Isolation is the purging theorem for
it.
-/

namespace MtRdma.Ports.SharedMemoryTenant

open Verified.Runs
open Verified.Noninterference

variable {t : TenantIdx}

/-! ## Calls to the store -/

/-- The calls, with their arguments; a pointer that may be `NULL` is an
option. -/
inductive StoreCall where
  | create (tenantId : UInt32) (name : Option (List UInt8)) (quota : Option TenantQuota)
  | delete (tenantId : UInt32)
  | setStatus (tenantId : UInt32) (status : TenantStatus)
  | updateQuota (tenantId : UInt32) (quota : Option TenantQuota)
  | updateResourceUsage (tenantId : UInt32) (usage : Option TenantResourceUsage)
  | getResourceUsage (tenantId : UInt32)
  | checkResourceLimit (tenantId : UInt32) (resourceType : Int) (amount : UInt32)
  | tryAllocateQp (tenantId : UInt32)
  | bindProcess (pid : Int) (tenantId : UInt32)
  | unbindProcess (pid : Int)

/-- What a call hands back: a return code, the record it copied out, or a
truth value. -/
inductive StoreAnswer where
  | code (rc : Int)
  | usage (record : Option TenantResourceUsage)
  | flag (b : Bool)
  deriving DecidableEq

/-- One call.  The two writers refuse a `NULL` record before they look at the
store. -/
def storeCall (s : TenantSharedMemory) : StoreCall → StoreAnswer × TenantSharedMemory
  | .create tenantId name quota =>
      let r := tenantCreate tenantId name quota s
      (.code r.1, r.2)
  | .delete tenantId =>
      let r := tenantDelete tenantId s
      (.code r.1, r.2)
  | .setStatus tenantId status =>
      let r := tenantSetStatus tenantId status s
      (.code r.1, r.2)
  | .updateQuota tenantId quota =>
      match quota with
      | none => (.code (-1), s)
      | some quota =>
          let r := tenantUpdateQuota tenantId quota s
          (.code r.1, r.2)
  | .updateResourceUsage tenantId usage =>
      match usage with
      | none => (.code (-1), s)
      | some usage =>
          let r := tenantUpdateResourceUsage tenantId usage s
          (.code r.1, r.2)
  | .getResourceUsage tenantId => (.usage (tenantGetResourceUsage tenantId s), s)
  | .checkResourceLimit tenantId resourceType amount =>
      (.flag (tenantCheckResourceLimit tenantId resourceType amount s), s)
  | .tryAllocateQp tenantId =>
      let r := tenantTryAllocateQp tenantId s
      (.flag r.1, r.2)
  | .bindProcess pid tenantId =>
      let r := tenantBindProcess pid tenantId s
      (.code r.1, r.2)
  | .unbindProcess pid =>
      let r := tenantUnbindProcess pid s
      (.code r.1, r.2)

/-- The number a call names, unless it is about a process. -/
def StoreCall.tenantId? : StoreCall → Option UInt32
  | .create tenantId _ _ => some tenantId
  | .delete tenantId => some tenantId
  | .setStatus tenantId _ => some tenantId
  | .updateQuota tenantId _ => some tenantId
  | .updateResourceUsage tenantId _ => some tenantId
  | .getResourceUsage tenantId => some tenantId
  | .checkResourceLimit tenantId _ _ => some tenantId
  | .tryAllocateQp tenantId => some tenantId
  | .bindProcess _ _ => none
  | .unbindProcess _ => none

/-- The call is about the tenant with record `t`. -/
def StoreCall.names (t : TenantIdx) (call : StoreCall) : Bool :=
  decide (call.tenantId?.bind tenantIdx? = some t)

/-! ## The abstract machine of one tenant -/

/-- What a call does to the ledger of the tenant it names.  Tenant 0 is never
created and never deleted. -/
def Ledger.call (l : Ledger) : StoreCall → StoreAnswer × Ledger
  | .create tenantId _ quota =>
      if tenantId = 0 ∨ l.status ≠ .inactive then (.code (-1), l)
      else (.code 0, ⟨.active, quota.getD defaultQuota, .zero⟩)
  | .delete tenantId =>
      if tenantId = 0 ∨ l.status = .inactive then (.code (-1), l)
      else (.code 0, { l with status := .inactive })
  | .setStatus _ status =>
      if l.status = .inactive then (.code (-1), l)
      else (.code 0, { l with status := status })
  | .updateQuota _ none => (.code (-1), l)
  | .updateQuota _ (some quota) =>
      if l.status = .inactive then (.code (-1), l)
      else (.code 0, { l with quota := quota })
  | .updateResourceUsage _ none => (.code (-1), l)
  | .updateResourceUsage _ (some usage) =>
      if l.status ≠ .active then (.code (-1), l)
      else (.code 0, { l with usage := usage })
  | .getResourceUsage _ => (.usage (if l.status ≠ .active then none else some l.usage), l)
  | .checkResourceLimit _ resourceType amount =>
      (.flag (if l.status ≠ .active then true
        else limitExceeded l.usage l.quota resourceType amount), l)
  | .tryAllocateQp _ =>
      if l.status ≠ .active then (.flag false, l)
      else if l.quota.maxQpPerTenant ≤ (clampQp l.usage).qpCount.toUInt32 then
        (.flag false, { l with usage := clampQp l.usage })
      else (.flag true, { l with usage := reserveQp (clampQp l.usage) })
  | .bindProcess _ _ => (.code 0, l)
  | .unbindProcess _ => (.code 0, l)

/-! ## The store refines the family of ledgers -/

/-- The deletion sweep writes the pid table only. -/
theorem sweepMappings_tenants (tenantId : UInt32) (s : TenantSharedMemory) :
    (sweepMappings tenantId s).tenants = s.tenants := by
  unfold sweepMappings
  refine foldl_invariant (P := fun s' : TenantSharedMemory => s'.tenants = s.tenants) rfl ?_ _
  intro s' i h
  unfold sweepStep
  split
  · exact h
  · exact h

theorem ledger_sweepMappings (tenantId : UInt32) (s : TenantSharedMemory) :
    ledger (sweepMappings tenantId s) = ledger s := by
  unfold ledger
  rw [sweepMappings_tenants]

theorem ledger_retireTenant (t : TenantIdx) (s : TenantSharedMemory) :
    ledger (retireTenant t s) =
      Function.update (ledger s) t { ledger s t with status := .inactive } :=
  ledger_setTenant t { s.tenants t with status := .inactive, processCount := 0 } s

/-- The call answers as the ledger of record `t` does, and moves that ledger
alone. -/
structure Refines (t : TenantIdx) (call : StoreCall) (s : TenantSharedMemory) : Prop where
  answer : (storeCall s call).1 = ((ledger s t).call call).1
  ledgers : ledger (storeCall s call).2 =
    Function.update (ledger s) t ((ledger s t).call call).2

/-- A call that touches nothing. -/
theorem Refines.of_unchanged {call : StoreCall} {s : TenantSharedMemory} (answer : StoreAnswer)
    (hstore : storeCall s call = (answer, s))
    (hledger : (ledger s t).call call = (answer, ledger s t)) : Refines t call s := by
  refine ⟨?_, ?_⟩
  · rw [hstore, hledger]
  · rw [hstore, hledger]
    exact (Function.update_eq_self t (ledger s)).symm

/-- A call that rewrites the record it names. -/
theorem Refines.of_setTenant {call : StoreCall} {s after : TenantSharedMemory}
    (answer : StoreAnswer) (info : TenantInfo) (hstore : storeCall s call = (answer, after))
    (hafter : ledger after = ledger (setTenant t info s))
    (hledger : (ledger s t).call call = (answer, ⟨info.status, info.quota, info.usage⟩)) :
    Refines t call s := by
  refine ⟨?_, ?_⟩
  · rw [hstore, hledger]
  · rw [hstore, hledger]
    exact hafter.trans (ledger_setTenant t info s)

section Calls

variable {tenantId : UInt32} {t : TenantIdx} {s : TenantSharedMemory}

theorem refines_create (ht : tenantIdx? tenantId = some t) (name : Option (List UInt8))
    (quota : Option TenantQuota) : Refines t (.create tenantId name quota) s := by
  by_cases hzero : tenantId = 0
  · apply Refines.of_unchanged (.code (-1))
    · simp [storeCall, tenantCreate, hzero]
    · simp [Ledger.call, hzero]
  · by_cases hst : (s.tenants t).status = .inactive
    · apply Refines.of_setTenant (.code 0) (freshTenant tenantId name quota)
      · simp only [storeCall, tenantCreate_inactive hzero ht hst]
        rfl
      · rfl
      · simp [Ledger.call, ledger, hzero, hst, freshTenant]
    · apply Refines.of_unchanged (.code (-1))
      · simp [storeCall, tenantCreate, hzero, ht, hst]
      · simp [Ledger.call, ledger, hst]

theorem refines_delete (ht : tenantIdx? tenantId = some t) : Refines t (.delete tenantId) s := by
  by_cases hzero : tenantId = 0
  · apply Refines.of_unchanged (.code (-1))
    · simp [storeCall, tenantDelete, hzero]
    · simp [Ledger.call, hzero]
  · by_cases hst : (s.tenants t).status = .inactive
    · apply Refines.of_unchanged (.code (-1))
      · simp [storeCall, tenantDelete, hzero, ht, hst]
      · simp [Ledger.call, ledger, hst]
    · have hstore : storeCall s (.delete tenantId) =
          (.code 0, retireTenant t (sweepMappings tenantId s)) := by
        simp only [storeCall, tenantDelete, hzero, ht, hst, if_false]
      have hledger : (ledger s t).call (.delete tenantId) =
          (.code 0, { ledger s t with status := .inactive }) := by
        simp [Ledger.call, ledger, hzero, hst]
      refine ⟨?_, ?_⟩
      · rw [hstore, hledger]
      · rw [hstore, hledger, ledger_retireTenant, ledger_sweepMappings]

theorem refines_setStatus (ht : tenantIdx? tenantId = some t) (status : TenantStatus) :
    Refines t (.setStatus tenantId status) s := by
  by_cases hst : (s.tenants t).status = .inactive
  · apply Refines.of_unchanged (.code (-1))
    · simp [storeCall, tenantSetStatus, ht, hst]
    · simp [Ledger.call, ledger, hst]
  · apply Refines.of_setTenant (.code 0) { s.tenants t with status := status }
    · simp only [storeCall, tenantSetStatus, ht, hst, if_false]
      rfl
    · rfl
    · simp [Ledger.call, ledger, hst]

theorem refines_updateQuota (ht : tenantIdx? tenantId = some t) (quota : Option TenantQuota) :
    Refines t (.updateQuota tenantId quota) s := by
  cases quota with
  | none => exact .of_unchanged (.code (-1)) rfl rfl
  | some quota =>
      by_cases hst : (s.tenants t).status = .inactive
      · apply Refines.of_unchanged (.code (-1))
        · simp [storeCall, tenantUpdateQuota, ht, hst]
        · simp [Ledger.call, ledger, hst]
      · apply Refines.of_setTenant (.code 0) { s.tenants t with quota := quota }
        · simp only [storeCall, tenantUpdateQuota, ht, hst, if_false]
          rfl
        · rfl
        · simp [Ledger.call, ledger, hst]

theorem refines_updateResourceUsage (ht : tenantIdx? tenantId = some t)
    (usage : Option TenantResourceUsage) :
    Refines t (.updateResourceUsage tenantId usage) s := by
  cases usage with
  | none => exact .of_unchanged (.code (-1)) rfl rfl
  | some usage =>
      by_cases hact : (s.tenants t).status = .active
      · apply Refines.of_setTenant (.code 0) { s.tenants t with usage := usage }
        · simp only [storeCall, tenantUpdateResourceUsage_active ht hact]
          rfl
        · rfl
        · simp [Ledger.call, ledger, hact]
      · apply Refines.of_unchanged (.code (-1))
        · simp [storeCall, tenantUpdateResourceUsage, ht, hact]
        · simp [Ledger.call, ledger, hact]

theorem refines_getResourceUsage (ht : tenantIdx? tenantId = some t) :
    Refines t (.getResourceUsage tenantId) s := by
  apply Refines.of_unchanged (.usage (tenantGetResourceUsage tenantId s))
  · rfl
  · simp only [Ledger.call, tenantGetResourceUsage, ht]
    rfl

theorem refines_checkResourceLimit (ht : tenantIdx? tenantId = some t) (resourceType : Int)
    (amount : UInt32) : Refines t (.checkResourceLimit tenantId resourceType amount) s := by
  apply Refines.of_unchanged (.flag (tenantCheckResourceLimit tenantId resourceType amount s))
  · rfl
  · simp only [Ledger.call, tenantCheckResourceLimit, ht]
    rfl

theorem refines_tryAllocateQp (ht : tenantIdx? tenantId = some t) :
    Refines t (.tryAllocateQp tenantId) s := by
  by_cases hact : (s.tenants t).status = .active
  · have htry := tenantTryAllocateQp_active ht hact
    by_cases hfull : (s.tenants t).quota.maxQpPerTenant ≤
        (clampQp (s.tenants t).usage).qpCount.toUInt32
    · rw [if_pos hfull] at htry
      apply Refines.of_setTenant (.flag false)
        { s.tenants t with usage := clampQp (s.tenants t).usage }
      · simp only [storeCall, htry]
        rfl
      · rfl
      · simp [Ledger.call, ledger, hact, hfull]
    · rw [if_neg hfull] at htry
      apply Refines.of_setTenant (.flag true)
        { s.tenants t with usage := reserveQp (clampQp (s.tenants t).usage) }
      · simp only [storeCall, htry]
        rfl
      · rfl
      · simp [Ledger.call, ledger, hact, hfull]
  · apply Refines.of_unchanged (.flag false)
    · simp [storeCall, tenantTryAllocateQp, ht, hact]
    · simp [Ledger.call, ledger, hact]

/-- **Refinement.**  A call that names a tenant is a call of that tenant's
abstract machine, and leaves every other machine where it is. -/
theorem storeCall_refines {call : StoreCall} (hid : call.tenantId? = some tenantId)
    (ht : tenantIdx? tenantId = some t) : Refines t call s := by
  cases call with
  | create n name quota =>
      obtain rfl := Option.some.inj hid
      exact refines_create ht name quota
  | delete n =>
      obtain rfl := Option.some.inj hid
      exact refines_delete ht
  | setStatus n status =>
      obtain rfl := Option.some.inj hid
      exact refines_setStatus ht status
  | updateQuota n quota =>
      obtain rfl := Option.some.inj hid
      exact refines_updateQuota ht quota
  | updateResourceUsage n usage =>
      obtain rfl := Option.some.inj hid
      exact refines_updateResourceUsage ht usage
  | getResourceUsage n =>
      obtain rfl := Option.some.inj hid
      exact refines_getResourceUsage ht
  | checkResourceLimit n resourceType amount =>
      obtain rfl := Option.some.inj hid
      exact refines_checkResourceLimit ht resourceType amount
  | tryAllocateQp n =>
      obtain rfl := Option.some.inj hid
      exact refines_tryAllocateQp ht
  | bindProcess | unbindProcess => cases hid

/-- A number out of range reaches no record. -/
theorem storeCall_out_of_range {call : StoreCall} (hid : call.tenantId? = some tenantId)
    (ht : tenantIdx? tenantId = none) : (storeCall s call).2 = s := by
  cases call with
  | create n name quota =>
      obtain rfl := Option.some.inj hid
      simp [storeCall, tenantCreate, ht]
  | delete n =>
      obtain rfl := Option.some.inj hid
      simp [storeCall, tenantDelete, ht]
  | setStatus n status =>
      obtain rfl := Option.some.inj hid
      simp [storeCall, tenantSetStatus, ht]
  | updateQuota n quota =>
      obtain rfl := Option.some.inj hid
      cases quota with
      | none => rfl
      | some quota => simp [storeCall, tenantUpdateQuota, ht]
  | updateResourceUsage n usage =>
      obtain rfl := Option.some.inj hid
      cases usage with
      | none => rfl
      | some usage => simp [storeCall, tenantUpdateResourceUsage, ht]
  | getResourceUsage | checkResourceLimit => rfl
  | tryAllocateQp n =>
      obtain rfl := Option.some.inj hid
      simp [storeCall, tenantTryAllocateQp, ht]
  | bindProcess | unbindProcess => cases hid

end Calls

/-! ## Isolation -/

/-- Calls about other tenants, and all moves of processes, leave the ledger of
`t` alone. -/
theorem ledger_of_not_names {call : StoreCall} (s : TenantSharedMemory) (h : call.names t = false) :
    ledger (storeCall s call).2 t = ledger s t := by
  cases hid : call.tenantId? with
  | none =>
      cases call with
      | bindProcess pid n => exact congrFun (ledger_bind pid n s) t
      | unbindProcess pid => exact congrFun (ledger_unbind pid s) t
      | _ => cases hid
  | some n =>
      cases hn : tenantIdx? n with
      | none => rw [storeCall_out_of_range hid hn]
      | some t' =>
          have hne : t ≠ t' := by
            intro heq
            simp [StoreCall.names, hid, hn, heq] at h
          rw [(storeCall_refines hid hn).ledgers, Function.update_of_ne hne]

theorem names_iff {call : StoreCall} :
    call.names t = true ↔ ∃ n, call.tenantId? = some n ∧ tenantIdx? n = some t := by
  simp [StoreCall.names, Option.bind_eq_some_iff]

/-- The ledger of `t` is a view the calls about `t` answer from. -/
theorem store_unwinding (t : TenantIdx) :
    Unwinding storeCall (StoreCall.names t) (fun s => ledger s t) where
  hidden := by
    intro s call h
    exact ledger_of_not_names s h
  answer := by
    intro s s' call h hview
    obtain ⟨n, hid, hn⟩ := names_iff.mp h
    rw [(storeCall_refines hid hn).answer, (storeCall_refines hid hn).answer, hview]
  follow := by
    intro s s' call h hview
    obtain ⟨n, hid, hn⟩ := names_iff.mp h
    simp only [(storeCall_refines hid hn).ledgers, Function.update_self, hview]

/-- **Isolation.**  From any store and for any sequence of calls, the answers
to the calls that name the tenant with record `t`, and its final status, quota
and usage, are those of the run in which every call naming another tenant and
every bind and unbind is left out. -/
theorem tenants_isolated (t : TenantIdx) (calls : List StoreCall) (s : TenantSharedMemory) :
    (observe storeCall (StoreCall.names t) calls s).1 =
        (observe storeCall (StoreCall.names t) (calls.filter (StoreCall.names t)) s).1 ∧
      ledger (observe storeCall (StoreCall.names t) calls s).2 t =
        ledger (observe storeCall (StoreCall.names t) (calls.filter (StoreCall.names t)) s).2 t :=
  (store_unwinding t).purge calls s s rfl

end MtRdma.Ports.SharedMemoryTenant
