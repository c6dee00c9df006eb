import MtRdma.Verified.BoundedMap
import MtRdma.Verified.Runs
import MtRdma.Ports.SharedMemoryTenant

/-!
# The pid-to-tenant map

`PidMapWf` is the invariant of the mapping array and its counter.  Each
operation of the tenant store keeps it, and changes the answer of
`tenant_get_process_tenant` only in the way a finite map would: a successful
bind sets one pid, an unbind removes one, and the deletion of a tenant removes
all pids mapped to it.  Over a whole history the answer is therefore the
tenant of the most recent successful bind that nothing has undone since.
-/

namespace MtRdma.Ports.SharedMemoryTenant

open Verified
open Verified.SlotScan
open Verified.Runs
open SharedMemory (Slot maxProcesses maxProcesses_lt)

variable {s s' : TenantSharedMemory} {tenantId : UInt32} {pid p : Int} {i : Slot} {t : TenantIdx}

/-! ## Tenant numbers -/

theorem tenantIdx?_eq_some_iff :
    tenantIdx? tenantId = some t ↔ t.val = tenantId.toNat := by
  unfold tenantIdx?
  by_cases h : tenantId.toNat < maxTenants
  · rw [dif_pos h, Option.some.injEq, Fin.ext_iff]
    exact eq_comm
  · rw [dif_neg h]
    constructor
    · intro hnone
      cases hnone
    · intro heq
      exact absurd (heq ▸ t.isLt) h

/-- Distinct tenant numbers select distinct records. -/
theorem tenantIdx?_inj {a b : UInt32} (ha : tenantIdx? a = some t) (hb : tenantIdx? b = some t) :
    a = b := by
  rw [tenantIdx?_eq_some_iff] at ha hb
  exact UInt32.toNat_inj.mp (ha.symm.trans hb)

/-- `tenantId` is in range and its tenant is ACTIVE. -/
def ActiveTenant (s : TenantSharedMemory) (tenantId : UInt32) : Prop :=
  ∃ t, tenantIdx? tenantId = some t ∧ (s.tenants t).status = .active

/-! ## What one bind can do -/

/-- The outcomes of `tenant_bind_process`. -/
inductive BindOutcome (pid : Int) (tenantId : UInt32) (s : TenantSharedMemory) :
    Int × TenantSharedMemory → Prop
  | refused : ¬ActiveTenant s tenantId → BindOutcome pid tenantId s (-1, s)
  | rebound {i : Slot} : ActiveTenant s tenantId →
      lookup (mappedPids s) pid = some i →
      BindOutcome pid tenantId s
        (0, { s with pidMappings := Function.update s.pidMappings i ⟨pid, tenantId⟩ })
  | added {i : Slot} {t : TenantIdx} : tenantIdx? tenantId = some t →
      (s.tenants t).status = .active → lookup (mappedPids s) pid = none →
      lookup (mappedPids s) 0 = some i →
      BindOutcome pid tenantId s
        (0, { setTenant t (enrollProcess pid (s.tenants t)) s with
          pidMappings := Function.update s.pidMappings i ⟨pid, tenantId⟩
          totalProcessCount := s.totalProcessCount + 1 })
  | full : ActiveTenant s tenantId → lookup (mappedPids s) pid = none →
      lookup (mappedPids s) 0 = none → BindOutcome pid tenantId s (-1, s)

theorem tenantBindProcess_outcome (pid : Int) (tenantId : UInt32)
    (s : TenantSharedMemory) :
    BindOutcome pid tenantId s (tenantBindProcess pid tenantId s) := by
  unfold tenantBindProcess
  cases ht : tenantIdx? tenantId with
  | none =>
      refine .refused ?_
      rintro ⟨t, ht', _⟩
      rw [ht] at ht'
      cases ht'
  | some t =>
      by_cases hst : (s.tenants t).status = .active
      · have hact : ActiveTenant s tenantId := ⟨t, ht, hst⟩
        simp only
        rw [if_neg (not_not.mpr hst)]
        cases hl : lookup (mappedPids s) pid with
        | some i =>
            have hfst := scan_fst (mappedPids s) 0 pid
            rw [hl] at hfst
            generalize scan (mappedPids s) 0 pid = r at hfst ⊢
            obtain ⟨found, hole⟩ := r
            obtain rfl : found = some i := hfst
            exact .rebound hact hl
        | none =>
            rw [scan_eq_lookup hl]
            cases hh : lookup (mappedPids s) 0 with
            | some i => exact .added ht hst hl hh
            | none => exact .full hact hl hh
      · simp only
        rw [if_pos hst]
        refine .refused ?_
        rintro ⟨t', ht', hst'⟩
        rw [ht, Option.some.injEq] at ht'
        exact hst (ht' ▸ hst')

/-! ## The invariant of the mapping array -/

/-- Well-formed mapping arrays. -/
structure PidMapWf (s : TenantSharedMemory) : Prop where
  distinct : Distinct 0 (mappedPids s)
  pid_nonneg : ∀ i, 0 ≤ mappedPids s i
  hole_tenant : ∀ i, mappedPids s i = 0 → (s.pidMappings i).tenantId = 0
  bound_tenant : ∀ i, mappedPids s i ≠ 0 →
    (s.pidMappings i).tenantId ≠ 0 ∧ (tenantIdx? (s.pidMappings i).tenantId).isSome
  count : s.totalProcessCount.toNat = (used 0 (mappedPids s)).card
  tenant_zero : ∀ t, tenantIdx? 0 = some t → (s.tenants t).status = .inactive

theorem mappedPids_update (s : TenantSharedMemory) (i : Slot) (v : PidTenantMapping)
    (s' : TenantSharedMemory) (h : s'.pidMappings = Function.update s.pidMappings i v) :
    mappedPids s' = Function.update (mappedPids s) i v.pid := by
  funext j
  unfold mappedPids
  rw [h]
  by_cases hj : j = i
  · simp [hj]
  · simp [hj]

theorem PidMapWf.zeroed : PidMapWf zeroed where
  distinct := Distinct.const 0
  pid_nonneg := fun _ => Int.le_refl 0
  hole_tenant := fun _ _ => rfl
  bound_tenant := fun _ h => absurd rfl h
  count := by
    have hnone : used 0 (mappedPids SharedMemoryTenant.zeroed) = ∅ := used_const 0
    rw [hnone]
    rfl
  tenant_zero := fun _ _ => rfl

/-- A new store maps no process. -/
theorem get_zeroed (h : pid ≠ 0) : tenantGetProcessTenant pid zeroed = none := by
  unfold tenantGetProcessTenant
  rw [(lookup_eq_none_iff (mappedPids SharedMemoryTenant.zeroed) pid).mpr fun _ => h.symm]
  rfl

/-- Operations that only rewrite tenant records keep the array invariant, as
long as tenant 0 stays INACTIVE. -/
theorem PidMapWf.of_same_mappings (h : PidMapWf s) (hmap : s'.pidMappings = s.pidMappings)
    (hcount : s'.totalProcessCount = s.totalProcessCount)
    (hzero : ∀ t, tenantIdx? 0 = some t → (s'.tenants t).status = .inactive) :
    PidMapWf s' := by
  have hpids : mappedPids s' = mappedPids s := by
    funext i
    unfold mappedPids
    rw [hmap]
  exact
    { distinct := hpids ▸ h.distinct
      pid_nonneg := by rw [hpids]; exact h.pid_nonneg
      hole_tenant := by rw [hpids, hmap]; exact h.hole_tenant
      bound_tenant := by rw [hpids, hmap]; exact h.bound_tenant
      count := by rw [hpids, hcount]; exact h.count
      tenant_zero := hzero }

/-- A slot is rewritten to a mapping that is right in itself. -/
theorem PidMapWf.rewrite (h : PidMapWf s) {m : PidTenantMapping}
    (hmap : s'.pidMappings = Function.update s.pidMappings i m) (hpid : 0 ≤ m.pid)
    (hhole : m.pid = 0 → m.tenantId = 0)
    (hbound : m.pid ≠ 0 → m.tenantId ≠ 0 ∧ (tenantIdx? m.tenantId).isSome)
    (hdistinct : Distinct 0 (Function.update (mappedPids s) i m.pid))
    (hcount : s'.totalProcessCount.toNat =
      (used 0 (Function.update (mappedPids s) i m.pid)).card)
    (hzero : ∀ t, tenantIdx? 0 = some t → (s'.tenants t).status = .inactive) :
    PidMapWf s' := by
  have hpids : mappedPids s' = Function.update (mappedPids s) i m.pid :=
    mappedPids_update s i m s' hmap
  refine
    { distinct := hpids ▸ hdistinct
      pid_nonneg := ?_
      hole_tenant := ?_
      bound_tenant := ?_
      count := hpids ▸ hcount
      tenant_zero := hzero }
  all_goals
    intro j
    rw [hpids]
    by_cases hj : j = i
  · simpa [hj] using hpid
  · simpa [hj] using h.pid_nonneg j
  · simpa [hmap, hj] using hhole
  · simpa [hmap, hj] using h.hole_tenant j
  · simpa [hmap, hj] using hbound
  · simpa [hmap, hj] using h.bound_tenant j

/-- Emptying an occupied slot and lowering the count keeps the invariant. -/
theorem PidMapWf.clear (h : PidMapWf s) (hi : mappedPids s i ≠ 0)
    (hmap : s'.pidMappings = Function.update s.pidMappings i ⟨0, 0⟩)
    (hcount : s'.totalProcessCount = s.totalProcessCount - 1)
    (hzero : ∀ t, tenantIdx? 0 = some t → (s'.tenants t).status = .inactive) :
    PidMapWf s' :=
  h.rewrite hmap (Int.le_refl 0) (fun _ => rfl) (fun hne => absurd rfl hne)
    (h.distinct.clear_slot i) (hcount ▸ count_clear_slot h.count hi) hzero

/-- Overwriting the tenant of a mapped pid keeps the invariant. -/
theorem PidMapWf.rebind (h : PidMapWf s) (hi : mappedPids s i = pid) (hpos : 0 < pid)
    (hten : tenantId ≠ 0 ∧ (tenantIdx? tenantId).isSome)
    (hmap : s'.pidMappings = Function.update s.pidMappings i ⟨pid, tenantId⟩)
    (hcount : s'.totalProcessCount = s.totalProcessCount)
    (hzero : ∀ t, tenantIdx? 0 = some t → (s'.tenants t).status = .inactive) :
    PidMapWf s' := by
  have hsame : Function.update (mappedPids s) i pid = mappedPids s :=
    Function.update_eq_self_iff.mpr hi.symm
  refine h.rewrite hmap hpos.le (fun h0 => absurd h0 hpos.ne') (fun _ => hten) ?_ ?_ hzero
  · rw [hsame]
    exact h.distinct
  · rw [hsame, hcount]
    exact h.count

/-- Filling a hole with an absent pid and raising the count keeps the
invariant. -/
theorem PidMapWf.add (h : PidMapWf s) (habs : lookup (mappedPids s) pid = none)
    (hi : mappedPids s i = 0) (hpos : 0 < pid)
    (hten : tenantId ≠ 0 ∧ (tenantIdx? tenantId).isSome)
    (hmap : s'.pidMappings = Function.update s.pidMappings i ⟨pid, tenantId⟩)
    (hcount : s'.totalProcessCount = s.totalProcessCount + 1)
    (hzero : ∀ t, tenantIdx? 0 = some t → (s'.tenants t).status = .inactive) :
    PidMapWf s' :=
  h.rewrite hmap hpos.le (fun h0 => absurd h0 hpos.ne') (fun _ => hten)
    (h.distinct.set_hole habs i)
    (hcount ▸ count_set_hole h.count maxProcesses_lt hi hpos.ne') hzero

/-! ## The deletion sweep -/

/-- The sweep of a non-zero tenant only empties occupied slots, one count per
slot. -/
theorem PidMapWf.sweepStep (h : PidMapWf s) (hne : tenantId ≠ 0) (i : Slot) :
    PidMapWf (sweepStep tenantId s i) := by
  unfold SharedMemoryTenant.sweepStep
  split
  · rename_i heq
    have hi : mappedPids s i ≠ 0 := by
      intro h0
      exact hne (heq.symm.trans (h.hole_tenant i h0))
    exact h.clear hi rfl rfl h.tenant_zero
  · exact h

theorem PidMapWf.sweepMappings (h : PidMapWf s) (hne : tenantId ≠ 0) :
    PidMapWf (sweepMappings tenantId s) :=
  foldl_invariant h (fun _ i hx => hx.sweepStep hne i) _

private theorem sweepStep_pidMappings (s : TenantSharedMemory) (i j : Slot) :
    (sweepStep tenantId s i).pidMappings j =
      if j = i ∧ (s.pidMappings j).tenantId = tenantId then ⟨0, 0⟩
      else s.pidMappings j := by
  unfold sweepStep
  by_cases hj : j = i
  · subst hj
    by_cases heq : (s.pidMappings j).tenantId = tenantId
    · simp [heq]
    · simp [heq]
  · split
    · simp [hj]
    · simp [hj]

private theorem foldl_sweepStep_pidMappings (hne : tenantId ≠ 0) (j : Slot) :
    ∀ (slots : List Slot) (s : TenantSharedMemory),
      (slots.foldl (sweepStep tenantId) s).pidMappings j =
        if j ∈ slots ∧ (s.pidMappings j).tenantId = tenantId then ⟨0, 0⟩
        else s.pidMappings j := by
  intro slots
  induction slots with
  | nil => intro s; simp
  | cons i rest ih =>
      intro s
      rw [List.foldl_cons, ih, sweepStep_pidMappings]
      by_cases hj : j = i
      · by_cases heq : (s.pidMappings j).tenantId = tenantId
        · -- once emptied, a later visit finds tenant 0 and leaves the slot alone
          subst hj
          simp [heq, hne.symm]
        · simp [heq]
      · simp [hj]

/-- After the sweep exactly the slots of the deleted tenant are empty. -/
theorem sweepMappings_pidMappings (hne : tenantId ≠ 0) (s : TenantSharedMemory) (j : Slot) :
    (sweepMappings tenantId s).pidMappings j =
      if (s.pidMappings j).tenantId = tenantId then ⟨0, 0⟩ else s.pidMappings j := by
  rw [sweepMappings, foldl_sweepStep_pidMappings hne]
  simp

/-! ## Every operation keeps the invariant -/

/-- The pids a caller may pass. -/
abbrev Pid := { p : Int // 0 < p }

/-- Calls that create, change or delete tenants and bindings. -/
inductive TenantOp where
  | create (tenantId : UInt32) (name : Option (List UInt8)) (quota : Option TenantQuota)
  | delete (tenantId : UInt32)
  | setStatus (tenantId : UInt32) (status : TenantStatus)
  | updateQuota (tenantId : UInt32) (quota : TenantQuota)
  | bind (pid : Pid) (tenantId : UInt32)
  | unbind (pid : Pid)

/-- Return value and segment after one call. -/
def tenantApply (s : TenantSharedMemory) : TenantOp → Int × TenantSharedMemory
  | .create tenantId name quota => tenantCreate tenantId name quota s
  | .delete tenantId => tenantDelete tenantId s
  | .setStatus tenantId status => tenantSetStatus tenantId status s
  | .updateQuota tenantId quota => tenantUpdateQuota tenantId quota s
  | .bind pid tenantId => tenantBindProcess pid tenantId s
  | .unbind pid => tenantUnbindProcess pid s

/-- Tenant 0 never becomes ACTIVE, so a bind never stores tenant 0. -/
theorem PidMapWf.active_ne_zero (h : PidMapWf s) (hact : ActiveTenant s tenantId) :
    tenantId ≠ 0 ∧ (tenantIdx? tenantId).isSome := by
  obtain ⟨t, ht, hst⟩ := hact
  refine ⟨?_, by rw [ht]; rfl⟩
  rintro rfl
  have hin := h.tenant_zero t ht
  rw [hst] at hin
  cases hin

/-- Rewriting the record of a tenant with another number leaves tenant 0
INACTIVE. -/
theorem PidMapWf.tenant_zero_set (h : PidMapWf s) {info : TenantInfo}
    (hinfo : tenantIdx? 0 = some t → info.status = .inactive) (t' : TenantIdx)
    (ht' : tenantIdx? 0 = some t') :
    ((setTenant t info s).tenants t').status = .inactive := by
  by_cases heq : t' = t
  · subst heq
    simpa [setTenant] using hinfo ht'
  · simpa [setTenant, heq] using h.tenant_zero t' ht'

theorem PidMapWf.create (h : PidMapWf s) (tenantId : UInt32) (name : Option (List UInt8))
    (quota : Option TenantQuota) :
    PidMapWf (tenantCreate tenantId name quota s).2 := by
  unfold tenantCreate
  split
  · exact h
  · rename_i hne
    split
    · exact h
    · rename_i t ht
      split
      · exact h
      · refine h.of_same_mappings rfl rfl (h.tenant_zero_set ?_)
        intro h0
        exact absurd (tenantIdx?_inj ht h0) hne

theorem retireTenant_pidMappings (t : TenantIdx) (s : TenantSharedMemory) :
    (retireTenant t s).pidMappings = s.pidMappings := rfl

theorem PidMapWf.retireTenant (h : PidMapWf s) (t : TenantIdx) :
    PidMapWf (retireTenant t s) :=
  h.of_same_mappings rfl rfl (h.tenant_zero_set fun _ => rfl)

/-- A deletion either fails and changes nothing, or sweeps and retires its
tenant. -/
theorem tenantDelete_cases (tenantId : UInt32) (s : TenantSharedMemory) :
    tenantDelete tenantId s = (-1, s) ∨
      ∃ t, tenantId ≠ 0 ∧ tenantIdx? tenantId = some t ∧ (s.tenants t).status ≠ .inactive ∧
        tenantDelete tenantId s = (0, retireTenant t (sweepMappings tenantId s)) := by
  unfold tenantDelete
  by_cases hne : tenantId = 0
  · exact .inl (if_pos hne)
  · rw [if_neg hne]
    cases ht : tenantIdx? tenantId with
    | none => exact .inl rfl
    | some t =>
        by_cases hst : (s.tenants t).status = .inactive
        · exact .inl (if_pos hst)
        · exact .inr ⟨t, hne, rfl, hst, if_neg hst⟩

theorem PidMapWf.delete (h : PidMapWf s) (tenantId : UInt32) :
    PidMapWf (tenantDelete tenantId s).2 := by
  rcases tenantDelete_cases tenantId s with hd | ⟨t, hne, _, _, hd⟩
  · rw [hd]
    exact h
  · rw [hd]
    exact (h.sweepMappings hne).retireTenant t

theorem PidMapWf.setStatus (h : PidMapWf s) (tenantId : UInt32) (status : TenantStatus) :
    PidMapWf (tenantSetStatus tenantId status s).2 := by
  unfold tenantSetStatus
  split
  · exact h
  · split
    · exact h
    · rename_i t _ hst
      refine h.of_same_mappings rfl rfl (h.tenant_zero_set ?_)
      intro h0
      exact absurd (h.tenant_zero t h0) hst

theorem PidMapWf.updateQuota (h : PidMapWf s) (tenantId : UInt32) (quota : TenantQuota) :
    PidMapWf (tenantUpdateQuota tenantId quota s).2 := by
  unfold tenantUpdateQuota
  split
  · exact h
  · split
    · exact h
    · rename_i t _ _
      exact h.of_same_mappings rfl rfl (h.tenant_zero_set (h.tenant_zero t))

theorem PidMapWf.bind (h : PidMapWf s) (hpos : 0 < pid) (tenantId : UInt32) :
    PidMapWf (tenantBindProcess pid tenantId s).2 := by
  have hout := tenantBindProcess_outcome pid tenantId s
  generalize tenantBindProcess pid tenantId s = r at hout
  cases hout with
  | refused _ => exact h
  | rebound hact hl =>
      exact h.rebind (lookup_some hl) hpos (h.active_ne_zero hact) rfl rfl h.tenant_zero
  | @added i t ht hst hl hh =>
      refine h.add hl (lookup_some hh) hpos (h.active_ne_zero ⟨t, ht, hst⟩) rfl rfl
        (h.tenant_zero_set ?_)
      intro h0
      exact h.tenant_zero t h0
  | full _ _ _ => exact h

/-- An unbind either finds no slot and changes nothing, or empties the slot of
the pid. -/
theorem tenantUnbindProcess_cases (pid : Int) (s : TenantSharedMemory) :
    (lookup (mappedPids s) pid = none ∧ tenantUnbindProcess pid s = (-1, s)) ∨
      ∃ i, lookup (mappedPids s) pid = some i ∧
        tenantUnbindProcess pid s =
          (0, { releaseFromTenant pid i s with
            pidMappings := Function.update s.pidMappings i ⟨0, 0⟩
            totalProcessCount :=
              if s.totalProcessCount > 0 then s.totalProcessCount - 1
              else s.totalProcessCount }) := by
  unfold tenantUnbindProcess
  cases hl : lookup (mappedPids s) pid with
  | none => exact .inl ⟨rfl, rfl⟩
  | some i => exact .inr ⟨i, rfl, rfl⟩

theorem PidMapWf.releaseFromTenant_zero (h : PidMapWf s) (pid : Int) (i : Slot) (t : TenantIdx)
    (ht : tenantIdx? 0 = some t) :
    ((releaseFromTenant pid i s).tenants t).status = .inactive := by
  unfold releaseFromTenant
  split
  · rename_i t' _
    have hdrop : tenantIdx? 0 = some t' →
        (dropProcess pid (s.tenants t')).status = .inactive := h.tenant_zero t'
    exact h.tenant_zero_set hdrop t ht
  · exact h.tenant_zero t ht

theorem PidMapWf.unbind (h : PidMapWf s) (hpos : 0 < pid) :
    PidMapWf (tenantUnbindProcess pid s).2 := by
  rcases tenantUnbindProcess_cases pid s with ⟨_, hu⟩ | ⟨i, hl, hu⟩
  · rw [hu]
    exact h
  · rw [hu]
    have hi : mappedPids s i ≠ 0 := by rw [lookup_some hl]; exact hpos.ne'
    have hcard := card_used_clear_slot hi
    have htotal : s.totalProcessCount > 0 := by
      rw [gt_iff_lt, UInt32.lt_iff_toNat_lt, h.count]
      simp only [UInt32.toNat_zero]
      omega
    exact h.clear hi rfl (if_pos htotal) (h.releaseFromTenant_zero pid i)

theorem PidMapWf.apply (h : PidMapWf s) (op : TenantOp) :
    PidMapWf (tenantApply s op).2 := by
  cases op with
  | create tenantId name quota => exact h.create tenantId name quota
  | delete tenantId => exact h.delete tenantId
  | setStatus tenantId status => exact h.setStatus tenantId status
  | updateQuota tenantId quota => exact h.updateQuota tenantId quota
  | bind pid tenantId => exact h.bind pid.2 tenantId
  | unbind pid => exact h.unbind pid.2

/-! ## When binds and unbinds succeed -/

/-- A bind succeeds exactly when its tenant is ACTIVE and the pid is mapped
already or a slot is free. -/
theorem tenantBindProcess_eq_zero_iff (pid : Int) (tenantId : UInt32)
    (s : TenantSharedMemory) :
    (tenantBindProcess pid tenantId s).1 = 0 ↔
      ActiveTenant s tenantId ∧
        ((∃ i, mappedPids s i = pid) ∨ ∃ i, mappedPids s i = 0) := by
  have hout := tenantBindProcess_outcome pid tenantId s
  generalize tenantBindProcess pid tenantId s = r at hout
  cases hout with
  | refused hno => simp [hno]
  | rebound hact hl => simpa using ⟨hact, .inl ⟨_, lookup_some hl⟩⟩
  | added ht hst _ hh => simpa using ⟨⟨_, ht, hst⟩, .inr ⟨_, lookup_some hh⟩⟩
  | full _ hl hh =>
      rw [lookup_eq_none_iff] at hl hh
      simp [hl, hh]

theorem tenantUnbindProcess_eq_zero_iff (pid : Int) (s : TenantSharedMemory) :
    (tenantUnbindProcess pid s).1 = 0 ↔ ∃ i, mappedPids s i = pid := by
  rw [← lookup_isSome_iff]
  rcases tenantUnbindProcess_cases pid s with ⟨hl, hu⟩ | ⟨i, hl, hu⟩
  · simp [hl, hu]
  · simp [hl, hu]

/-! ## How one operation changes the answer for one pid -/

/-- In a well-formed array the answer for `p` is `u` exactly when some slot
holds the pair. -/
theorem PidMapWf.get_eq_some_iff (h : PidMapWf s) (hp : 0 < p) {u : UInt32} :
    tenantGetProcessTenant p s = some u ↔ ∃ i, s.pidMappings i = ⟨p, u⟩ := by
  unfold tenantGetProcessTenant
  rw [Option.map_eq_some_iff]
  constructor
  · rintro ⟨i, hl, hu⟩
    have hpid : (s.pidMappings i).pid = p := lookup_some hl
    refine ⟨i, ?_⟩
    rw [← hpid, ← hu]
  · rintro ⟨i, hi⟩
    have hpid : mappedPids s i = p := by simp [mappedPids, hi]
    refine ⟨i, ?_, by rw [hi]⟩
    rw [← hpid]
    exact h.distinct.lookup_eq (by omega)

/-- The call is a successful bind of `p` to `u`. -/
def Binds (p : Int) (u : UInt32) : TenantOp × Int → Prop
  | (.bind q t, rc) => q.val = p ∧ t = u ∧ rc = 0
  | _ => False

/-- The call ends a binding of `p` to `u`: a later successful bind of `p`, an
unbind of `p`, or the successful deletion of `u`. -/
def Releases (p : Int) (u : UInt32) : TenantOp × Int → Prop
  | (.bind q _, rc) => q.val = p ∧ rc = 0
  | (.unbind q, _) => q.val = p
  | (.delete t, rc) => t = u ∧ rc = 0
  | _ => False

theorem tenantCreate_pidMappings (tenantId : UInt32) (name : Option (List UInt8))
    (quota : Option TenantQuota) (s : TenantSharedMemory) :
    (tenantCreate tenantId name quota s).2.pidMappings = s.pidMappings := by
  unfold tenantCreate
  split
  · rfl
  · split
    · rfl
    · split <;> rfl

theorem tenantSetStatus_pidMappings (tenantId : UInt32) (status : TenantStatus)
    (s : TenantSharedMemory) :
    (tenantSetStatus tenantId status s).2.pidMappings = s.pidMappings := by
  unfold tenantSetStatus
  split
  · rfl
  · split <;> rfl

theorem tenantUpdateQuota_pidMappings (tenantId : UInt32) (quota : TenantQuota)
    (s : TenantSharedMemory) :
    (tenantUpdateQuota tenantId quota s).2.pidMappings = s.pidMappings := by
  unfold tenantUpdateQuota
  split
  · rfl
  · split <;> rfl

/-- Writing the pair of `pid` into a slot that holds `pid` or is free changes
the answer for `pid` and for no other pid. -/
theorem exists_mapping_update_iff (h : Distinct 0 (mappedPids s)) {t u : UInt32} (hp : 0 < p)
    (hi : mappedPids s i = pid ∨ (mappedPids s i = 0 ∧ lookup (mappedPids s) pid = none)) :
    (∃ j, Function.update s.pidMappings i ⟨pid, t⟩ j = ⟨p, u⟩) ↔
      (pid = p ∧ t = u) ∨ ((∃ j, s.pidMappings j = ⟨p, u⟩) ∧ pid ≠ p) := by
  constructor
  · rintro ⟨j, hj⟩
    by_cases hji : j = i
    · subst hji
      rw [Function.update_self, PidTenantMapping.mk.injEq] at hj
      exact .inl hj
    · rw [Function.update_of_ne hji] at hj
      have hpj : mappedPids s j = p := by simp [mappedPids, hj]
      refine .inr ⟨⟨j, hj⟩, ?_⟩
      rintro rfl
      rcases hi with hi | ⟨_, habs⟩
      · exact hji (h j i (hpj.trans hi.symm) (by omega))
      · exact (lookup_eq_none_iff _ _).mp habs j hpj
  · rintro (⟨rfl, rfl⟩ | ⟨⟨j, hj⟩, hne⟩)
    · exact ⟨i, Function.update_self _ _ _⟩
    · have hpj : mappedPids s j = p := by simp [mappedPids, hj]
      have hji : j ≠ i := by
        rintro rfl
        rcases hi with hi | ⟨hi, _⟩
        · exact hne (hi.symm.trans hpj)
        · omega
      exact ⟨j, by rw [Function.update_of_ne hji]; exact hj⟩

/-- A deletion releases exactly the pids mapped to the deleted tenant. -/
theorem exists_mapping_delete_iff (tenantId : UInt32) (s : TenantSharedMemory) (hp : 0 < p)
    (u : UInt32) :
    (∃ i, (tenantDelete tenantId s).2.pidMappings i = ⟨p, u⟩) ↔
      (∃ i, s.pidMappings i = ⟨p, u⟩) ∧ ¬(tenantId = u ∧ (tenantDelete tenantId s).1 = 0) := by
  rcases tenantDelete_cases tenantId s with hd | ⟨t, hne, _, _, hd⟩
  · rw [hd]
    simp
  · have hrc : (tenantDelete tenantId s).1 = 0 := congrArg Prod.fst hd
    have hsegment : (tenantDelete tenantId s).2 = retireTenant t (sweepMappings tenantId s) :=
      congrArg Prod.snd hd
    have hmap : ∀ i, (tenantDelete tenantId s).2.pidMappings i =
        if (s.pidMappings i).tenantId = tenantId then ⟨0, 0⟩ else s.pidMappings i := by
      intro i
      rw [hsegment, retireTenant_pidMappings, sweepMappings_pidMappings hne]
    simp only [hrc, hmap]
    constructor
    · rintro ⟨i, hi⟩
      by_cases heq : (s.pidMappings i).tenantId = tenantId
      · rw [if_pos heq, PidTenantMapping.mk.injEq] at hi
        omega
      · rw [if_neg heq] at hi
        refine ⟨⟨i, hi⟩, ?_⟩
        rintro ⟨rfl, _⟩
        exact heq (by rw [hi])
    · rintro ⟨⟨i, hi⟩, hno⟩
      refine ⟨i, ?_⟩
      rw [if_neg, hi]
      rw [hi]
      rintro rfl
      exact hno ⟨rfl, trivial⟩

/-- An unbind releases its pid and no other. -/
theorem exists_mapping_unbind_iff (h : Distinct 0 (mappedPids s)) (hpid : 0 < pid) (hp : 0 < p)
    (u : UInt32) :
    (∃ i, (tenantUnbindProcess pid s).2.pidMappings i = ⟨p, u⟩) ↔
      (∃ i, s.pidMappings i = ⟨p, u⟩) ∧ pid ≠ p := by
  rcases tenantUnbindProcess_cases pid s with ⟨hl, hu⟩ | ⟨i, hl, hu⟩
  · rw [hu]
    constructor
    · rintro ⟨i, hi⟩
      refine ⟨⟨i, hi⟩, ?_⟩
      intro heq
      have hpi : mappedPids s i = p := congrArg PidTenantMapping.pid hi
      exact (lookup_eq_none_iff _ _).mp hl i (hpi.trans heq.symm)
    · exact fun hi => hi.1
  · rw [hu]
    have hpi : mappedPids s i = pid := lookup_some hl
    constructor
    · rintro ⟨j, hj⟩
      by_cases hji : j = i
      · simp only [hji, Function.update_self, PidTenantMapping.mk.injEq] at hj
        omega
      · simp only [Function.update_of_ne hji] at hj
        refine ⟨⟨j, hj⟩, ?_⟩
        intro heq
        have hpj : mappedPids s j = pid := by simp only [mappedPids, hj, heq]
        exact hji (h j i (hpj.trans hpi.symm) (by omega))
    · rintro ⟨⟨j, hj⟩, hne⟩
      have hji : j ≠ i := by
        rintro rfl
        exact hne (by rw [← hpi]; simp only [mappedPids, hj])
      exact ⟨j, by simpa [hji] using hj⟩

/-- A bind maps its pid to its tenant if it succeeds, and changes no other
pid. -/
theorem exists_mapping_bind_iff (h : Distinct 0 (mappedPids s)) (hp : 0 < p) (tenantId u : UInt32) :
    (∃ i, (tenantBindProcess pid tenantId s).2.pidMappings i = ⟨p, u⟩) ↔
      (pid = p ∧ tenantId = u ∧ (tenantBindProcess pid tenantId s).1 = 0) ∨
        ((∃ i, s.pidMappings i = ⟨p, u⟩) ∧
          ¬(pid = p ∧ (tenantBindProcess pid tenantId s).1 = 0)) := by
  have hout := tenantBindProcess_outcome pid tenantId s
  generalize tenantBindProcess pid tenantId s = r at hout ⊢
  cases hout with
  | refused _ => simp
  | rebound _ hl =>
      rw [exists_mapping_update_iff h hp (.inl (lookup_some hl))]
      simp
  | added _ _ hl hh =>
      simp only
      rw [exists_mapping_update_iff h hp (.inr ⟨lookup_some hh, hl⟩)]
      simp
  | full _ _ _ => simp

/-- **One step of the map.**  After any call the answer for `p` is `u` exactly
when the call bound `p` to `u`, or it was `u` before and the call did not
release it. -/
theorem tenantApply_get_iff (h : PidMapWf s) (op : TenantOp) (hp : 0 < p) (u : UInt32) :
    tenantGetProcessTenant p (tenantApply s op).2 = some u ↔
      Binds p u (op, (tenantApply s op).1) ∨
        (tenantGetProcessTenant p s = some u ∧ ¬Releases p u (op, (tenantApply s op).1)) := by
  rw [(h.apply op).get_eq_some_iff hp, h.get_eq_some_iff hp]
  cases op with
  | create tenantId name quota =>
      simp only [tenantApply, Binds, Releases, false_or, not_false_eq_true, and_true,
        tenantCreate_pidMappings]
  | setStatus tenantId status =>
      simp only [tenantApply, Binds, Releases, false_or, not_false_eq_true, and_true,
        tenantSetStatus_pidMappings]
  | updateQuota tenantId quota =>
      simp only [tenantApply, Binds, Releases, false_or, not_false_eq_true, and_true,
        tenantUpdateQuota_pidMappings]
  | delete tenantId =>
      simp only [tenantApply, Binds, Releases, false_or]
      exact exists_mapping_delete_iff tenantId s hp u
  | bind pid tenantId =>
      simp only [tenantApply, Binds, Releases]
      exact exists_mapping_bind_iff h.distinct hp tenantId u
  | unbind pid =>
      simp only [tenantApply, Binds, Releases, false_or]
      exact exists_mapping_unbind_iff h.distinct pid.2 hp u

/-! ## Whole histories -/

/-- Execute one call, appending it and its return value to the history. -/
def tenantStep (h : List (TenantOp × Int) × TenantSharedMemory) (op : TenantOp) :
    List (TenantOp × Int) × TenantSharedMemory :=
  (h.1 ++ [(op, (tenantApply h.2 op).1)], (tenantApply h.2 op).2)

/-- History and final segment of a sequence of calls on a zeroed segment. -/
def tenantRun (ops : List TenantOp) : List (TenantOp × Int) × TenantSharedMemory :=
  ops.foldl tenantStep ([], zeroed)

/-- `u` is the tenant of the most recent successful bind of `p` that no later
call has undone. -/
def BoundTo (history : List (TenantOp × Int)) (p : Int) (u : UInt32) : Prop :=
  Since (Binds p u) (Releases p u) history

theorem tenantRun_wf (ops : List TenantOp) : PidMapWf (tenantRun ops).2 :=
  foldl_invariant (P := fun h : List (TenantOp × Int) × TenantSharedMemory => PidMapWf h.2)
    PidMapWf.zeroed (fun _ op h => h.apply op) ops

/-- Over a whole history the map answers with the most recent live bind. -/
theorem tenantRun_get_iff (ops : List TenantOp) (hp : 0 < p) (u : UInt32) :
    tenantGetProcessTenant p (tenantRun ops).2 = some u ↔ BoundTo (tenantRun ops).1 p u := by
  have hboth : PidMapWf (tenantRun ops).2 ∧
      (tenantGetProcessTenant p (tenantRun ops).2 = some u ↔
        BoundTo (tenantRun ops).1 p u) := by
    refine foldl_invariant
      (P := fun h : List (TenantOp × Int) × TenantSharedMemory =>
        PidMapWf h.2 ∧ (tenantGetProcessTenant p h.2 = some u ↔ BoundTo h.1 p u)) ?_ ?_ ops
    · refine ⟨PidMapWf.zeroed, ?_⟩
      rw [PidMapWf.zeroed.get_eq_some_iff hp]
      constructor
      · rintro ⟨i, hi⟩
        have h0 : (0 : Int) = p := congrArg PidTenantMapping.pid hi
        omega
      · intro hb
        exact absurd hb (not_since_nil _ _)
    · rintro h op ⟨hwf, hiff⟩
      refine ⟨hwf.apply op, ?_⟩
      simp only [tenantStep, BoundTo, since_snoc]
      rw [tenantApply_get_iff hwf op hp u, hiff]
      rfl
  exact hboth.2

/-- **The pid-to-tenant map refines a finite map with an exact count.**  After
any calls with positive pids from the zeroed segment: no pid occupies two
slots, holes carry tenant 0, the total is the number of occupied slots, binds
and unbinds succeed exactly when they should, and the answer for a pid is the
tenant of its most recent successful bind that was not undone since. -/
theorem pidMap_refines_finiteMap (ops : List TenantOp) :
    let s := (tenantRun ops).2
    (∀ i j, (s.pidMappings i).pid = (s.pidMappings j).pid →
      (s.pidMappings i).pid ≠ 0 → i = j) ∧
    (∀ i, (s.pidMappings i).pid = 0 → (s.pidMappings i).tenantId = 0) ∧
    s.totalProcessCount.toNat =
      (Finset.univ.filter fun i => (s.pidMappings i).pid ≠ 0).card ∧
    (∀ (p : Pid) (t : UInt32), (tenantBindProcess p t s).1 = 0 ↔
      (∃ h : t.toNat < maxTenants, (s.tenants ⟨t.toNat, h⟩).status = .active) ∧
        ((∃ i, (s.pidMappings i).pid = p) ∨ ∃ i, (s.pidMappings i).pid = 0)) ∧
    (∀ p : Pid, (tenantUnbindProcess p s).1 = 0 ↔ ∃ i, (s.pidMappings i).pid = p) ∧
    (∀ (p : Pid) (t : UInt32),
      tenantGetProcessTenant p s = some t ↔ BoundTo (tenantRun ops).1 p t) ∧
    (∀ p : Pid, tenantGetProcessTenant p s = none ↔
      ∀ t, ¬BoundTo (tenantRun ops).1 p t) := by
  have hwf := tenantRun_wf ops
  refine ⟨hwf.distinct, hwf.hole_tenant, hwf.count, ?_, ?_, ?_, ?_⟩
  · intro p t
    rw [tenantBindProcess_eq_zero_iff]
    refine and_congr ?_ Iff.rfl
    constructor
    · rintro ⟨t', ht', hst⟩
      rw [tenantIdx?_eq_some_iff] at ht'
      refine ⟨ht' ▸ t'.isLt, ?_⟩
      have hfin : (⟨t.toNat, ht' ▸ t'.isLt⟩ : TenantIdx) = t' := Fin.ext ht'.symm
      rw [hfin]
      exact hst
    · rintro ⟨hlt, hst⟩
      exact ⟨⟨t.toNat, hlt⟩, tenantIdx?_eq_some_iff.mpr rfl, hst⟩
  · intro p
    exact tenantUnbindProcess_eq_zero_iff p _
  · intro p t
    exact tenantRun_get_iff ops p.2 t
  · intro p
    rw [Option.eq_none_iff_forall_ne_some]
    exact forall_congr' fun t => not_congr (tenantRun_get_iff ops p.2 t)

end MtRdma.Ports.SharedMemoryTenant
