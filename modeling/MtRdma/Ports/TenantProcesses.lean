import MtRdma.Ports.TenantLifecycle

/-!
# The process lists of tenants

Beside the pid-to-tenant map each tenant record has a list of its processes
and their number.  The two are written by different parts of the same calls:
a bind of a new pid fills the first free cell of the list, an unbind clears
the cell of the pid, a deletion forgets the number and the next creation the
list.

A list stands for a set of pids (`Lists`).  As long as no call moves a mapped
pid to another tenant, the set of every existing tenant is the set of pids the
map assigns to it.  A bind of a mapped pid rewrites the map entry only, and
the lists of both tenants are wrong from then on.
-/

namespace MtRdma.Ports.SharedMemoryTenant

open Verified
open Verified.SlotScan
open Verified.Runs
open SharedMemory (Slot maxProcesses maxProcesses_lt)

/-! ## A process list as a set of pids -/

/-- The cells of the process list hold the positive pids in `pids`, each once,
and the number is the number of occupied cells. -/
structure Lists (info : TenantInfo) (pids : Int → Prop) : Prop where
  distinct : Distinct 0 info.processes
  nonneg : ∀ j, 0 ≤ info.processes j
  listed : ∀ p, 0 < p → ((∃ j, info.processes j = p) ↔ pids p)
  count : info.processCount.toNat = (used 0 info.processes).card

variable {info : TenantInfo} {pids pids' : Int → Prop} {pid : Int}

theorem Lists.congr (h : Lists info pids) (hsame : ∀ p, 0 < p → (pids p ↔ pids' p)) :
    Lists info pids' :=
  { h with listed := fun p hp => (h.listed p hp).trans (hsame p hp) }

theorem Lists.fresh (tenantId : UInt32) (name : Option (List UInt8))
    (quota : Option TenantQuota) (hnone : ∀ p, 0 < p → ¬pids p) :
    Lists (freshTenant tenantId name quota) pids where
  distinct := Distinct.const 0
  nonneg := fun _ => Int.le_refl 0
  listed := by
    intro p hp
    refine iff_of_false ?_ (hnone p hp)
    rintro ⟨j, hj⟩
    have hzero : (0 : Int) = p := hj
    omega
  count := by
    have hempty : used 0 (freshTenant tenantId name quota).processes = ∅ := used_const 0
    rw [hempty]
    rfl

/-- A new pid goes to the free cell `j`. -/
theorem Lists.enroll (h : Lists info pids) (hpos : 0 < pid) (habs : ¬pids pid) {j : Slot}
    (hj : lookup info.processes 0 = some j) :
    Lists (enrollProcess pid info) fun p => p = pid ∨ pids p := by
  have hadd : (enrollProcess pid info).processes = Function.update info.processes j pid := by
    simp [enrollProcess, addProcess, hj]
  have habsent : lookup info.processes pid = none := by
    rw [lookup_eq_none_iff]
    intro k hk
    exact habs ((h.listed pid hpos).mp ⟨k, hk⟩)
  have hhole : info.processes j = 0 := lookup_some hj
  refine
    { distinct := by rw [hadd]; exact h.distinct.set_hole habsent j
      nonneg := ?_
      listed := ?_
      count := ?_ }
  · intro k
    rw [hadd]
    by_cases hk : k = j
    · simp [hk, hpos.le]
    · simpa [hk] using h.nonneg k
  · intro p hp
    rw [hadd, exists_set_hole_iff hhole hp.ne', h.listed p hp]
  · show (info.processCount + 1).toNat = _
    rw [hadd]
    exact count_set_hole h.count maxProcesses_lt hhole hpos.ne'

/-- A listed pid is cleared from its cell. -/
theorem Lists.drop (h : Lists info pids) (hpos : 0 < pid) (hmem : pids pid) :
    Lists (dropProcess pid info) fun p => pids p ∧ p ≠ pid := by
  obtain ⟨j, rfl⟩ := (h.listed pid hpos).mpr hmem
  have hremove : (dropProcess (info.processes j) info).processes =
      Function.update info.processes j 0 := by
    simp [dropProcess, removeProcess, h.distinct.lookup_eq hpos.ne']
  refine
    { distinct := by rw [hremove]; exact h.distinct.clear_slot j
      nonneg := ?_
      listed := ?_
      count := ?_ }
  · intro k
    rw [hremove]
    by_cases hk : k = j
    · simp [hk]
    · simpa [hk] using h.nonneg k
  · intro p hp
    rw [hremove, h.distinct.exists_clear_slot_iff j hp.ne', h.listed p hp]
  · have hcard := card_used_clear_slot hpos.ne'
    show (if info.processCount > 0 then info.processCount - 1
      else info.processCount).toNat = _
    rw [hremove]
    exact MachineInt.toNat_guarded_sub_one (h.count.trans hcard.symm)

/-! ## The mapping array without its total

`tenant_unbind_process` takes any pid.  Asked for pid 0 it finds a hole of the
map, which names tenant 0, and lowers the total of processes; nothing else
changes.  The total has no part in the bookkeeping below. -/

/-- The mapping array is well formed for some value of the total. -/
def MapShape (s : TenantSharedMemory) : Prop :=
  ∃ n, PidMapWf { s with totalProcessCount := n }

section Shape

variable {s s' : TenantSharedMemory} {i : Slot}

theorem MapShape.zeroed : MapShape zeroed :=
  ⟨0, PidMapWf.zeroed⟩

theorem MapShape.distinct (h : MapShape s) : Distinct 0 (mappedPids s) := by
  obtain ⟨n, hwf⟩ := h
  exact hwf.distinct

theorem MapShape.tenant_zero (h : MapShape s) {t : TenantIdx} (ht : tenantIdx? 0 = some t) :
    (s.tenants t).status = .inactive := by
  obtain ⟨n, hwf⟩ := h
  exact hwf.tenant_zero t ht

/-- Tenant 0 stays INACTIVE under calls that change no status. -/
theorem MapShape.tenant_zero_of_same_statuses (h : MapShape s)
    (hstatus : statuses s' = statuses s) :
    ∀ t, tenantIdx? 0 = some t → (s'.tenants t).status = .inactive := by
  intro t ht
  exact (congrFun hstatus t).trans (h.tenant_zero ht)

/-- A hole of the map is the pair of pid 0 and tenant 0. -/
theorem MapShape.hole (h : MapShape s) (hi : mappedPids s i = 0) : s.pidMappings i = ⟨0, 0⟩ := by
  obtain ⟨n, hwf⟩ := h
  have htenant : (s.pidMappings i).tenantId = 0 := hwf.hole_tenant i hi
  have hpid : (s.pidMappings i).pid = 0 := hi
  have hentry : s.pidMappings i = ⟨(s.pidMappings i).pid, (s.pidMappings i).tenantId⟩ := rfl
  rw [hentry, hpid, htenant]

theorem MapShape.of_same_mappings (h : MapShape s) (hmap : s'.pidMappings = s.pidMappings)
    (hzero : ∀ t, tenantIdx? 0 = some t → (s'.tenants t).status = .inactive) :
    MapShape s' := by
  obtain ⟨n, hwf⟩ := h
  exact ⟨n, hwf.of_same_mappings hmap rfl hzero⟩

theorem MapShape.clear (h : MapShape s) (hi : mappedPids s i ≠ 0)
    (hmap : s'.pidMappings = Function.update s.pidMappings i ⟨0, 0⟩)
    (hzero : ∀ t, tenantIdx? 0 = some t → (s'.tenants t).status = .inactive) :
    MapShape s' := by
  obtain ⟨n, hwf⟩ := h
  exact ⟨n - 1, hwf.clear hi hmap rfl hzero⟩

theorem MapShape.create (h : MapShape s) (tenantId : UInt32) (name : Option (List UInt8))
    (quota : Option TenantQuota) : MapShape (tenantCreate tenantId name quota s).2 := by
  refine h.of_same_mappings (tenantCreate_pidMappings tenantId name quota s) ?_
  intro t ht
  rcases tenantCreate_cases tenantId name quota s with hc | ⟨u, hne, hu, _, hc⟩
  · rw [hc]
    exact h.tenant_zero ht
  · have htu : t ≠ u := by
      rintro rfl
      exact hne (tenantIdx?_inj hu ht)
    rw [hc]
    simpa [setTenant, htu] using h.tenant_zero ht

theorem MapShape.sweepMappings (h : MapShape s) {tenantId : UInt32} (hne : tenantId ≠ 0) :
    MapShape (sweepMappings tenantId s) := by
  refine foldl_invariant h ?_ _
  intro s₁ i h₁
  unfold sweepStep
  split
  · rename_i hswept
    have hi : mappedPids s₁ i ≠ 0 := by
      intro hhole
      rw [h₁.hole hhole] at hswept
      exact hne hswept.symm
    exact h₁.clear hi rfl fun t ht => h₁.tenant_zero ht
  · exact h₁

theorem MapShape.retireTenant (h : MapShape s) (t : TenantIdx) : MapShape (retireTenant t s) := by
  refine h.of_same_mappings (retireTenant_pidMappings t s) ?_
  intro u hu
  show statuses (SharedMemoryTenant.retireTenant t s) u = .inactive
  rw [statuses_retireTenant]
  by_cases hut : u = t
  · rw [hut, Function.update_self]
  · rw [Function.update_of_ne hut]
    exact h.tenant_zero hu

theorem MapShape.delete (h : MapShape s) (tenantId : UInt32) :
    MapShape (tenantDelete tenantId s).2 := by
  rcases tenantDelete_cases tenantId s with hd | ⟨t, hne, _, _, hd⟩
  · rw [hd]
    exact h
  · rw [hd]
    exact (h.sweepMappings hne).retireTenant t

theorem MapShape.bind (h : MapShape s) {pid : Int} (hpos : 0 < pid) (tenantId : UInt32) :
    MapShape (tenantBindProcess pid tenantId s).2 := by
  have hzero := h.tenant_zero_of_same_statuses (statuses_of_ledger (ledger_bind pid tenantId s))
  have hout := tenantBindProcess_outcome pid tenantId s
  generalize tenantBindProcess pid tenantId s = r at hout hzero
  obtain ⟨n, hwf⟩ := h
  cases hout with
  | refused _ => exact ⟨n, hwf⟩
  | rebound hact hl =>
      exact ⟨n, hwf.rebind (lookup_some hl) hpos (hwf.active_ne_zero hact) rfl rfl hzero⟩
  | @added i t ht hst hl hh =>
      exact ⟨n + 1, hwf.add hl (lookup_some hh) hpos (hwf.active_ne_zero ⟨t, ht, hst⟩) rfl rfl
        hzero⟩
  | full _ _ _ => exact ⟨n, hwf⟩

theorem MapShape.unbind (h : MapShape s) (pid : Int) :
    MapShape (tenantUnbindProcess pid s).2 := by
  have hzero := h.tenant_zero_of_same_statuses (statuses_of_ledger (ledger_unbind pid s))
  rcases tenantUnbindProcess_cases pid s with ⟨_, hu⟩ | ⟨i, _, hu⟩
  · rw [hu]
    exact h
  · rw [hu] at hzero ⊢
    by_cases hi : mappedPids s i = 0
    · refine h.of_same_mappings ?_ hzero
      exact Function.update_eq_self_iff.mpr (h.hole hi).symm
    · exact h.clear hi rfl hzero

end Shape

/-! ## The bookkeeping invariant -/

/-- The map assigns `p` to `tenantId`. -/
def Mapped (s : TenantSharedMemory) (tenantId : UInt32) (p : Int) : Prop :=
  ∃ i, s.pidMappings i = ⟨p, tenantId⟩

/-- The list of every existing tenant is the set of pids the map assigns to
it. -/
structure Booked (s : TenantSharedMemory) : Prop where
  shape : MapShape s
  homed : AllHomed s
  lists : ∀ tenantId t, tenantIdx? tenantId = some t → (s.tenants t).status ≠ .inactive →
    Lists (s.tenants t) (Mapped s tenantId)

variable {s s' : TenantSharedMemory} {tenantId : UInt32} {t : TenantIdx}

theorem Booked.zeroed : Booked zeroed where
  shape := MapShape.zeroed
  homed := AllHomed.zeroed
  lists := fun _ _ _ hst => absurd rfl hst

/-- A call that rewrites the record of one tenant, and moves no pid between
the others, has to account for that tenant only. -/
theorem Booked.of_one_tenant (h : Booked s) (hshape : MapShape s') (hhomed : AllHomed s')
    (ht : tenantIdx? tenantId = some t)
    (hframe : ∀ u, u ≠ t → s'.tenants u = s.tenants u)
    (hothers : ∀ u p, u ≠ tenantId → 0 < p → (Mapped s u p ↔ Mapped s' u p))
    (hown : (s'.tenants t).status ≠ .inactive →
      Lists (s'.tenants t) (Mapped s' tenantId)) : Booked s' := by
  refine ⟨hshape, hhomed, ?_⟩
  intro u v hv hst
  by_cases hvt : v = t
  · subst hvt
    obtain rfl := tenantIdx?_inj hv ht
    exact hown hst
  · have hut : u ≠ tenantId := by
      rintro rfl
      exact hvt (Option.some.inj (hv.symm.trans ht))
    rw [hframe v hvt] at hst ⊢
    exact (h.lists u v hv hst).congr fun p hp => hothers u p hut hp

/-- An INACTIVE tenant has no mapped pids. -/
theorem Booked.not_mapped (h : Booked s) (ht : tenantIdx? tenantId = some t)
    (hst : (s.tenants t).status = .inactive) {p : Int} (hp : 0 < p) : ¬Mapped s tenantId p := by
  rintro ⟨i, hi⟩
  have hpid : (s.pidMappings i).pid ≠ 0 := by
    rw [hi]
    exact hp.ne'
  obtain ⟨u, hu, hexists⟩ := h.homed i hpid
  rw [hi] at hu
  obtain rfl : u = t := Option.some.inj (hu.symm.trans ht)
  exact hexists hst

theorem Booked.create (h : Booked s) (tenantId : UInt32) (name : Option (List UInt8))
    (quota : Option TenantQuota) : Booked (tenantCreate tenantId name quota s).2 := by
  have hmap := tenantCreate_pidMappings tenantId name quota s
  have hshape := h.shape.create tenantId name quota
  have hhomed := h.homed.create tenantId name quota
  rcases tenantCreate_cases tenantId name quota s with hc | ⟨t, _, ht, hst, hc⟩
  · rw [hc]
    exact h
  · rw [hc] at hmap hshape hhomed ⊢
    refine h.of_one_tenant hshape hhomed ht ?_ ?_ ?_
    · intro u hu
      simp [setTenant, hu]
    · intro u p _ _
      rw [Mapped, Mapped, hmap]
    · intro _
      have hfresh : Lists (freshTenant tenantId name quota) (Mapped s tenantId) :=
        Lists.fresh tenantId name quota fun p hp => h.not_mapped ht hst hp
      show Lists (Function.update s.tenants t (freshTenant tenantId name quota) t)
        (Mapped s tenantId)
      rw [Function.update_self]
      exact hfresh

theorem Booked.delete (h : Booked s) (tenantId : UInt32) :
    Booked (tenantDelete tenantId s).2 := by
  have hothers : ∀ u p, u ≠ tenantId → 0 < p →
      (Mapped s u p ↔ Mapped (tenantDelete tenantId s).2 u p) := by
    intro u p hu hp
    rw [Mapped, Mapped, exists_mapping_delete_iff tenantId s hp u]
    simp [hu.symm]
  have hshape := h.shape.delete tenantId
  have hhomed := h.homed.delete tenantId
  rcases tenantDelete_cases tenantId s with hd | ⟨t, _, ht, _, hd⟩
  · rw [hd]
    exact h
  · rw [hd] at hothers hshape hhomed ⊢
    have hstatus : ∀ u, ((retireTenant t (sweepMappings tenantId s)).tenants u) =
        Function.update s.tenants t
          { s.tenants t with status := .inactive, processCount := 0 } u := by
      intro u
      rw [← sweepMappings_tenants tenantId s]
      rfl
    refine h.of_one_tenant hshape hhomed ht ?_ hothers ?_
    · intro u hu
      rw [hstatus, Function.update_of_ne hu]
    · intro hst
      rw [hstatus, Function.update_self] at hst
      exact absurd rfl hst

/-- While the map has a hole, so has the list of every existing tenant. -/
theorem Booked.exists_free_cell (h : Booked s) {i : Slot}
    (hhole : lookup (mappedPids s) 0 = some i) (ht : tenantIdx? tenantId = some t)
    (hst : (s.tenants t).status ≠ .inactive) :
    ∃ j, lookup (s.tenants t).processes 0 = some j := by
  have hlist := h.lists tenantId t ht hst
  have hsub : (used 0 (s.tenants t).processes).image (s.tenants t).processes ⊆
      (used 0 (mappedPids s)).image (mappedPids s) := by
    intro p hp
    obtain ⟨j, hj, rfl⟩ := Finset.mem_image.mp hp
    have hpos : 0 < (s.tenants t).processes j :=
      lt_of_le_of_ne (hlist.nonneg j) (Ne.symm (mem_used.mp hj))
    obtain ⟨k, hk⟩ := (hlist.listed _ hpos).mp ⟨j, rfl⟩
    have hpid : mappedPids s k = (s.tenants t).processes j := congrArg PidTenantMapping.pid hk
    exact Finset.mem_image.mpr ⟨k, mem_used.mpr (by rw [hpid]; exact hpos.ne'), hpid⟩
  have hle := Finset.card_le_card hsub
  rw [hlist.distinct.card_image_used, h.shape.distinct.card_image_used] at hle
  have hlt : (used 0 (mappedPids s)).card < maxProcesses :=
    (exists_hole_iff 0 (mappedPids s)).mp (by rw [hhole]; rfl)
  exact Option.isSome_iff_exists.mp
    ((exists_hole_iff 0 (s.tenants t).processes).mpr (lt_of_le_of_lt hle hlt))

/-- The first bind of a pid enters it in the map and in the list of its
tenant. -/
theorem Booked.bind_new (h : Booked s) {pid : Int} (hpos : 0 < pid) {i : Slot}
    (ht : tenantIdx? tenantId = some t) (hst : (s.tenants t).status = .active)
    (habs : lookup (mappedPids s) pid = none) (hhole : lookup (mappedPids s) 0 = some i) :
    Booked (tenantBindProcess pid tenantId s).2 := by
  have hshape := h.shape.bind hpos tenantId
  have hhomed := h.homed.bind pid tenantId
  rw [tenantBindProcess_absent pid ht hst habs hhole] at hshape hhomed ⊢
  have hexists : (s.tenants t).status ≠ .inactive := by
    rw [hst]
    decide
  have hmapped : ∀ u p, 0 < p →
      ((∃ j, Function.update s.pidMappings i ⟨pid, tenantId⟩ j = ⟨p, u⟩) ↔
        (pid = p ∧ tenantId = u) ∨ (Mapped s u p ∧ pid ≠ p)) := by
    intro u p hp
    exact exists_mapping_update_iff h.shape.distinct hp (.inr ⟨lookup_some hhole, habs⟩)
  have hunmapped : ∀ u, ¬Mapped s u pid := by
    rintro u ⟨k, hk⟩
    exact (lookup_eq_none_iff _ _).mp habs k (congrArg PidTenantMapping.pid hk)
  obtain ⟨j, hj⟩ := h.exists_free_cell hhole ht hexists
  refine h.of_one_tenant hshape hhomed ht ?_ ?_ ?_
  · intro u hu
    simp [setTenant, hu]
  · intro u p hu hp
    show Mapped s u p ↔ ∃ j, Function.update s.pidMappings i ⟨pid, tenantId⟩ j = ⟨p, u⟩
    rw [hmapped u p hp]
    constructor
    · intro hm
      refine .inr ⟨hm, ?_⟩
      rintro rfl
      exact hunmapped u hm
    · rintro (⟨_, htu⟩ | ⟨hm, _⟩)
      · exact absurd htu.symm hu
      · exact hm
  · intro _
    have hlist := (h.lists tenantId t ht hexists).enroll hpos (hunmapped tenantId) hj
    simp only [setTenant, Function.update_self]
    refine hlist.congr ?_
    intro p hp
    show _ ↔ ∃ j, Function.update s.pidMappings i ⟨pid, tenantId⟩ j = ⟨p, tenantId⟩
    rw [hmapped tenantId p hp]
    by_cases hpp : pid = p
    · simp [hpp]
    · simp [hpp, Ne.symm hpp]

/-- An unbind of a mapped pid clears it from the map and from the list of its
tenant. -/
theorem Booked.unbind_mapped (h : Booked s) {pid : Int} (hpos : 0 < pid) {i : Slot}
    (hl : lookup (mappedPids s) pid = some i) : Booked (tenantUnbindProcess pid s).2 := by
  have hpid : (s.pidMappings i).pid = pid := lookup_some hl
  obtain ⟨t, ht, hst⟩ := h.homed i (by rw [hpid]; exact hpos.ne')
  have hmapped : ∀ u p, 0 < p →
      (Mapped (tenantUnbindProcess pid s).2 u p ↔ Mapped s u p ∧ pid ≠ p) :=
    fun u p hp => exists_mapping_unbind_iff h.shape.distinct hpos hp u
  have htenants : (tenantUnbindProcess pid s).2.tenants =
      Function.update s.tenants t (dropProcess pid (s.tenants t)) := by
    simp [tenantUnbindProcess, hl, releaseFromTenant, ht, setTenant]
  have howner : ∀ u, Mapped s u pid → u = (s.pidMappings i).tenantId := by
    rintro u ⟨k, hk⟩
    have hkp : mappedPids s k = pid := congrArg PidTenantMapping.pid hk
    obtain rfl := h.shape.distinct k i (hkp.trans hpid.symm) (by rw [hkp]; exact hpos.ne')
    rw [hk]
  refine h.of_one_tenant (h.shape.unbind pid) (h.homed.unbind pid) ht ?_ ?_ ?_
  · intro u hu
    rw [htenants, Function.update_of_ne hu]
  · intro u p hu hp
    rw [hmapped u p hp]
    refine ⟨fun hm => ⟨hm, ?_⟩, fun hm => hm.1⟩
    rintro rfl
    exact hu (howner u hm)
  · intro _
    have hmem : Mapped s (s.pidMappings i).tenantId pid := ⟨i, by rw [← hpid]⟩
    rw [htenants, Function.update_self]
    refine ((h.lists _ t ht hst).drop hpos hmem).congr ?_
    intro p hp
    rw [hmapped _ p hp]
    exact and_congr_right fun _ => ne_comm

/-- An unbind of pid 0 finds a hole and drops nothing from an existing
tenant. -/
theorem Booked.unbind_hole (h : Booked s) {i : Slot} (hl : lookup (mappedPids s) 0 = some i) :
    Booked (tenantUnbindProcess 0 s).2 := by
  have hhole := h.shape.hole (lookup_some hl)
  obtain ⟨t, ht⟩ : ∃ t, tenantIdx? 0 = some t := ⟨0, by decide⟩
  have htenants : (tenantUnbindProcess 0 s).2.tenants =
      Function.update s.tenants t (dropProcess 0 (s.tenants t)) := by
    simp [tenantUnbindProcess, hl, releaseFromTenant, hhole, ht, setTenant]
  have hmap : (tenantUnbindProcess 0 s).2.pidMappings = s.pidMappings := by
    simp only [tenantUnbindProcess, hl]
    exact Function.update_eq_self_iff.mpr hhole.symm
  have hstatus : ((tenantUnbindProcess 0 s).2.tenants t).status = .inactive := by
    rw [htenants, Function.update_self]
    exact h.shape.tenant_zero ht
  refine h.of_one_tenant (h.shape.unbind 0) (h.homed.unbind 0) ht ?_ ?_ ?_
  · intro u hu
    rw [htenants, Function.update_of_ne hu]
  · intro u p _ _
    rw [Mapped, Mapped, hmap]
  · intro hst
    exact absurd hstatus hst

theorem Booked.unbind (h : Booked s) (pid : Int) : Booked (tenantUnbindProcess pid s).2 := by
  cases hl : lookup (mappedPids s) pid with
  | none =>
      simp only [tenantUnbindProcess, hl]
      exact h
  | some i =>
      obtain ⟨n, hwf⟩ := h.shape
      have hpid : mappedPids s i = pid := lookup_some hl
      have hnonneg : 0 ≤ mappedPids s i := hwf.pid_nonneg i
      rcases (hpid ▸ hnonneg).lt_or_eq with hpos | rfl
      · exact h.unbind_mapped hpos hl
      · exact h.unbind_hole hl

/-! ## Calls -/

/-- Calls that create and delete tenants and bind and unbind processes.  An
unbind may name any pid. -/
inductive ProcessOp where
  | create (tenantId : UInt32) (name : Option (List UInt8)) (quota : Option TenantQuota)
  | delete (tenantId : UInt32)
  | bind (pid : Pid) (tenantId : UInt32)
  | unbind (pid : Int)

/-- Return value and segment after one call. -/
def processApply (s : TenantSharedMemory) : ProcessOp → Int × TenantSharedMemory
  | .create tenantId name quota => tenantCreate tenantId name quota s
  | .delete tenantId => tenantDelete tenantId s
  | .bind pid tenantId => tenantBindProcess pid tenantId s
  | .unbind pid => tenantUnbindProcess pid s

/-- The call binds a pid that is mapped to another tenant, and the new tenant
is ACTIVE. -/
def MovesProcess (s : TenantSharedMemory) : ProcessOp → Prop
  | .bind pid tenantId =>
      ActiveTenant s tenantId ∧ ∃ u, tenantGetProcessTenant pid s = some u ∧ u ≠ tenantId
  | _ => False

/-- A bind keeps the books exactly when it does not move its pid. -/
theorem Booked.bind_iff (h : Booked s) (pid : Pid) (tenantId : UInt32) :
    Booked (tenantBindProcess pid tenantId s).2 ↔ ¬MovesProcess s (.bind pid tenantId) := by
  have hnew : ∀ {i t}, tenantIdx? tenantId = some t → (s.tenants t).status = .active →
      lookup (mappedPids s) pid.1 = none → lookup (mappedPids s) 0 = some i →
      Booked (tenantBindProcess pid tenantId s).2 :=
    fun ht hst habs hhole => h.bind_new pid.2 ht hst habs hhole
  have hout := tenantBindProcess_outcome pid tenantId s
  generalize hr : tenantBindProcess pid tenantId s = r at hout hnew
  cases hout with
  | refused hno => exact iff_of_true h fun hmoves => hno hmoves.1
  | added ht hst habs hhole =>
      refine iff_of_true (hnew ht hst habs hhole) ?_
      rintro ⟨_, u, hu, _⟩
      simp [tenantGetProcessTenant, habs] at hu
  | full _ habs _ =>
      refine iff_of_true h ?_
      rintro ⟨_, u, hu, _⟩
      simp [tenantGetProcessTenant, habs] at hu
  | @rebound i hact hl =>
      have hpid : (s.pidMappings i).pid = pid := lookup_some hl
      have hget : tenantGetProcessTenant pid s = some (s.pidMappings i).tenantId := by
        simp [tenantGetProcessTenant, hl]
      constructor
      · rintro hafter ⟨_, u, hu, hne⟩
        rw [hget, Option.some.injEq] at hu
        subst hu
        obtain ⟨t, ht, hst⟩ := h.homed i (by rw [hpid]; exact pid.2.ne')
        -- the old tenant still lists the pid, the map no longer assigns it
        have hlisted := ((h.lists _ t ht hst).listed pid pid.2).mpr ⟨i, by rw [← hpid]⟩
        have hmapped := ((hafter.lists _ t ht hst).listed pid pid.2).mp hlisted
        have hupdate := (exists_mapping_update_iff h.shape.distinct pid.2
          (.inl (lookup_some hl))).mp hmapped
        rcases hupdate with ⟨_, htenant⟩ | ⟨_, hother⟩
        · exact hne htenant.symm
        · exact hother rfl
      · intro hstays
        have hsame : (s.pidMappings i).tenantId = tenantId := by
          by_contra hne
          exact hstays ⟨hact, _, hget, hne⟩
        have hentry : Function.update s.pidMappings i ⟨pid, tenantId⟩ = s.pidMappings := by
          rw [Function.update_eq_self_iff, ← hpid, ← hsame]
        simp only [hentry]
        exact h

/-- **One call.**  The books are kept by every call except a bind that moves a
pid to another tenant. -/
theorem Booked.step_iff (h : Booked s) (op : ProcessOp) :
    Booked (processApply s op).2 ↔ ¬MovesProcess s op := by
  cases op with
  | create tenantId name quota => exact iff_of_true (h.create tenantId name quota) id
  | delete tenantId => exact iff_of_true (h.delete tenantId) id
  | bind pid tenantId => exact h.bind_iff pid tenantId
  | unbind pid => exact iff_of_true (h.unbind pid) id

/-! ## Whole runs -/

/-- One call on the segment. -/
def ProcessCall (s : TenantSharedMemory) (op : ProcessOp) (s' : TenantSharedMemory) : Prop :=
  s' = (processApply s op).2

/-- Calls that move no mapped pid to another tenant. -/
def StayingCall (s : TenantSharedMemory) (op : ProcessOp) (s' : TenantSharedMemory) : Prop :=
  ¬MovesProcess s op ∧ ProcessCall s op s'

theorem booked_run {ops : List ProcessOp} (hrun : Run StayingCall zeroed ops s) : Booked s := by
  refine hrun.invariant Booked.zeroed ?_
  rintro s₁ op s₂ h ⟨hstays, rfl⟩
  exact (h.step_iff op).mpr hstays

/-- The pids the map assigns to `tenantId`. -/
def pidsOf (s : TenantSharedMemory) (tenantId : UInt32) : Finset Int :=
  (Finset.univ.filter fun i =>
    (s.pidMappings i).pid ≠ 0 ∧ (s.pidMappings i).tenantId = tenantId).image
      fun i => (s.pidMappings i).pid

theorem mem_pidsOf {p : Int} :
    p ∈ pidsOf s tenantId ↔ p ≠ 0 ∧ Mapped s tenantId p := by
  simp only [pidsOf, Finset.mem_image, Finset.mem_filter, Finset.mem_univ, true_and, Mapped]
  constructor
  · rintro ⟨i, ⟨hpid, htenant⟩, rfl⟩
    exact ⟨hpid, i, by rw [← htenant]⟩
  · rintro ⟨hp, i, hi⟩
    exact ⟨i, by simp [hi, hp], by rw [hi]⟩

theorem Booked.image_processes (h : Booked s) (ht : tenantIdx? tenantId = some t)
    (hst : (s.tenants t).status ≠ .inactive) :
    (used 0 (s.tenants t).processes).image (s.tenants t).processes = pidsOf s tenantId := by
  have hlist := h.lists tenantId t ht hst
  obtain ⟨n, hwf⟩ := h.shape
  ext p
  rw [mem_pidsOf, Finset.mem_image]
  constructor
  · rintro ⟨j, hj, rfl⟩
    have hne := mem_used.mp hj
    have hpos := lt_of_le_of_ne (hlist.nonneg j) (Ne.symm hne)
    exact ⟨hne, (hlist.listed _ hpos).mp ⟨j, rfl⟩⟩
  · rintro ⟨hne, hm⟩
    obtain ⟨i, hi⟩ := hm
    have hpid : mappedPids s i = p := congrArg PidTenantMapping.pid hi
    have hnonneg : 0 ≤ mappedPids s i := hwf.pid_nonneg i
    obtain ⟨j, rfl⟩ := (hlist.listed p (by omega)).mpr ⟨i, hi⟩
    exact ⟨j, mem_used.mpr hne, rfl⟩

/-- **Process lists agree with the map.**  After any calls from the zeroed
segment, none of which moves a mapped pid to another tenant: the number of
processes of an existing tenant is the number of pids the map assigns to it,
and the non-zero cells of its list hold exactly those pids, each once. -/
theorem process_lists_agree {ops : List ProcessOp} (hrun : Run StayingCall zeroed ops s)
    (tenantId : UInt32) (t : TenantIdx) (ht : tenantIdx? tenantId = some t)
    (hst : (s.tenants t).status ≠ .inactive) :
    (s.tenants t).processCount.toNat = (pidsOf s tenantId).card ∧
      (∀ p, p ≠ 0 → ((∃ j, (s.tenants t).processes j = p) ↔ p ∈ pidsOf s tenantId)) ∧
      ∀ j k, (s.tenants t).processes j = (s.tenants t).processes k →
        (s.tenants t).processes j ≠ 0 → j = k := by
  have h := booked_run hrun
  have hlist := h.lists tenantId t ht hst
  have himage := h.image_processes ht hst
  refine ⟨?_, ?_, hlist.distinct⟩
  · rw [← himage, hlist.distinct.card_image_used]
    exact hlist.count
  · intro p hp
    rw [← himage, Finset.mem_image]
    constructor
    · rintro ⟨j, rfl⟩
      exact ⟨j, mem_used.mpr hp, rfl⟩
    · rintro ⟨j, _, hj⟩
      exact ⟨j, hj⟩

theorem soloTenant_staying (quota : TenantQuota) :
    Run StayingCall zeroed [.create 1 none (some quota), .bind ⟨100, by decide⟩ 1]
      (soloTenant 100 quota) := by
  have hget : tenantGetProcessTenant 100 (tenantCreate 1 none (some quota) zeroed).2 = none := by
    rw [tenantGetProcessTenant_of_mappings (tenantCreate_pidMappings 1 none (some quota) zeroed)]
    exact get_zeroed (by decide)
  refine .snoc (.snoc .start ⟨id, rfl⟩) ⟨?_, rfl⟩
  rintro ⟨_, u, hu, _⟩
  have hsome : none = some u := hget.symm.trans hu
  cases hsome

theorem process_lists_agree_solo :
    ((soloTenant 100 defaultQuota).tenants 1).processCount.toNat =
        (pidsOf (soloTenant 100 defaultQuota) 1).card ∧
      (∀ p, p ≠ 0 → ((∃ j, ((soloTenant 100 defaultQuota).tenants 1).processes j = p) ↔
        p ∈ pidsOf (soloTenant 100 defaultQuota) 1)) ∧
      ∀ j k, ((soloTenant 100 defaultQuota).tenants 1).processes j =
          ((soloTenant 100 defaultQuota).tenants 1).processes k →
        ((soloTenant 100 defaultQuota).tenants 1).processes j ≠ 0 → j = k :=
  process_lists_agree (soloTenant_staying defaultQuota) 1 1 tenantIdx?_one (by
    rw [soloTenant_eq (by decide)]
    exact fun h => (nomatch h))

/-- Process 100 of tenant 1 is bound to tenant 2. -/
def movedProcess : TenantSharedMemory := (tenantBindProcess 100 2 twoTenants).2

theorem twoTenants_pidMappings :
    twoTenants.pidMappings = Function.update zeroed.pidMappings 0 ⟨100, 1⟩ := by
  rw [twoTenants_eq, soloTenant_eq (by decide)]
  rfl

theorem movedProcess_eq : movedProcess =
    { twoTenants with pidMappings := Function.update zeroed.pidMappings 0 ⟨100, 2⟩ } := by
  have hfirst : mappedPids twoTenants 0 = 100 := by
    simp [mappedPids, twoTenants_pidMappings]
  have hl : lookup (mappedPids twoTenants) 100 = some 0 := lookup_first hfirst
  have hout := tenantBindProcess_outcome 100 2 twoTenants
  unfold movedProcess
  generalize tenantBindProcess 100 2 twoTenants = r at hout
  cases hout with
  | refused hno => exact absurd twoTenants_active hno
  | rebound _ hi =>
      rw [hl] at hi
      cases hi
      simp [twoTenants_pidMappings]
  | added _ _ habs _ =>
      rw [hl] at habs
      cases habs
  | full _ habs _ =>
      rw [hl] at habs
      cases habs

/-- The only entry of the map is that of process 100 and tenant 2. -/
theorem movedProcess_mapped (u : UInt32) {p : Int} (hp : p ≠ 0) :
    Mapped movedProcess u p ↔ p = 100 ∧ u = 2 := by
  rw [movedProcess_eq]
  constructor
  · rintro ⟨i, hi⟩
    by_cases h0 : i = 0
    · simp only [h0, Function.update_self, PidTenantMapping.mk.injEq] at hi
      exact ⟨hi.1.symm, hi.2.symm⟩
    · simp only [Function.update_of_ne h0] at hi
      exact absurd (congrArg PidTenantMapping.pid hi).symm hp
  · rintro ⟨rfl, rfl⟩
    exact ⟨0, by simp⟩

/-- Binding process 100 to tenant 2 leaves it in the list of tenant 1 and out
of the list of tenant 2. -/
theorem moved_process_miscounted :
    Run ProcessCall zeroed
        [.create 1 none (some defaultQuota), .bind ⟨100, by decide⟩ 1, .create 2 none none,
          .bind ⟨100, by decide⟩ 2] movedProcess ∧
      (movedProcess.tenants 1).status = .active ∧
      (movedProcess.tenants 1).processCount = 1 ∧ pidsOf movedProcess 1 = ∅ ∧
      (movedProcess.tenants 2).status = .active ∧
      (movedProcess.tenants 2).processCount = 0 ∧ pidsOf movedProcess 2 = {100} := by
  have htenants : movedProcess.tenants =
      Function.update (Function.update zeroed.tenants 1
        (enrollProcess 100 (freshTenant 1 none (some defaultQuota)))) 2
          (freshTenant 2 none none) := by
    rw [movedProcess_eq, twoTenants_eq, soloTenant_eq (by decide)]
    rfl
  refine ⟨.snoc (.snoc (.snoc (.snoc .start rfl) rfl) rfl) rfl, ?_, ?_, ?_, ?_, ?_, ?_⟩
  · rw [htenants]
    rfl
  · rw [htenants]
    rfl
  · ext p
    rw [mem_pidsOf]
    refine iff_of_false ?_ (Finset.notMem_empty p)
    rintro ⟨hp, hm⟩
    exact absurd ((movedProcess_mapped 1 hp).mp hm).2 (by decide)
  · rw [htenants]
    rfl
  · rw [htenants]
    rfl
  · ext p
    rw [mem_pidsOf, Finset.mem_singleton]
    constructor
    · rintro ⟨hp, hm⟩
      exact ((movedProcess_mapped 2 hp).mp hm).1
    · rintro rfl
      exact ⟨by decide, (movedProcess_mapped 2 (by decide)).mpr ⟨rfl, rfl⟩⟩

end MtRdma.Ports.SharedMemoryTenant
