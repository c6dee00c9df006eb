import MtRdma.Verified.AccessCode
import MtRdma.Ports.TenantLifecycle
import MtRdma.Ports.TenantSegment

/-!
# Listings of the tenants

There are two ways to list the tenants.  `tenant_get_active_list` copies the
ACTIVE records under the lock, up to the number the caller has room for.  The
manager's commands `LIST_TENANTS` and `STATUS` read the records without the
lock, one field after the other, while hooks and other managers go on working.

The first is a listing of one moment (`active_list_exact`).  Of the second one
may expect less, and gets it (`unlocked_listings_consistent`): the listing ends,
a tenant that exists all the while is listed once, one that never exists is not
listed, the order is that of the numbers, and every column was in the record
when it was read.
-/

namespace MtRdma.Ports.TenantListings

open Verified.AccessCode
open Verified.Runs
open Verified.SlotScan
open SharedMemoryTenant
open TenantSegment (Segment storeAfter)

variable {s : TenantSharedMemory} {t : TenantIdx} {rest ms all : List Segment}

/-! ## Under the lock -/

/-- The loop of `tenant_get_active_list`: `count` records have been copied. -/
def activeFrom (maxCount : Nat) (s : TenantSharedMemory) : Nat → List TenantIdx → List TenantInfo
  | _, [] => []
  | count, t :: ts =>
      if count < maxCount then
        if (s.tenants t).status = .active then
          s.tenants t :: activeFrom maxCount s (count + 1) ts
        else activeFrom maxCount s count ts
      else []

/-- `tenant_get_active_list`: `none` is the return value `-1`. -/
def tenantGetActiveList (maxCount : Int) (s : TenantSharedMemory) : Option (List TenantInfo) :=
  if maxCount ≤ 0 then none
  else some (activeFrom maxCount.toNat s 0 (List.finRange maxTenants))

/-- `tenant_get_statistics`: the two totals, `none` for the return value `-1`. -/
def tenantGetStatistics (tenantId : UInt32) (s : TenantSharedMemory) : Option (UInt64 × UInt64) :=
  match tenantIdx? tenantId with
  | none => none
  | some t =>
      if (s.tenants t).status ≠ .active then none
      else some ((s.tenants t).usage.totalQpCreates, (s.tenants t).usage.totalMrRegs)

/-- The numbers of the ACTIVE tenants, in order. -/
def activeTenants (s : TenantSharedMemory) : List TenantIdx :=
  (List.finRange maxTenants).filter fun t => decide ((s.tenants t).status = .active)

theorem activeFrom_eq (maxCount : Nat) (s : TenantSharedMemory) (ts : List TenantIdx) :
    ∀ count, activeFrom maxCount s count ts =
      ((ts.filter fun t => decide ((s.tenants t).status = .active)).map s.tenants).take
        (maxCount - count) := by
  induction ts with
  | nil => simp [activeFrom]
  | cons t ts ih =>
      intro count
      rw [activeFrom]
      by_cases hmore : count < maxCount
      · rw [if_pos hmore]
        by_cases hactive : (s.tenants t).status = .active
        · have hleft : maxCount - count = maxCount - (count + 1) + 1 := by omega
          simp [hactive, ih, hleft]
        · simp [hactive, ih]
      · have hleft : maxCount - count = 0 := by omega
        rw [if_neg hmore, hleft]
        rfl

theorem tenantGetActiveList_eq {maxCount : Int} (hmax : 0 < maxCount) (s : TenantSharedMemory) :
    tenantGetActiveList maxCount s =
      some (((activeTenants s).map s.tenants).take maxCount.toNat) := by
  rw [tenantGetActiveList, if_neg (by omega), activeFrom_eq]
  rfl

/-! ### The numbers in the records -/

/-- The record of an existing tenant carries its number. -/
def Numbered (s : TenantSharedMemory) : Prop :=
  ∀ t, (s.tenants t).status ≠ .inactive → tenantIdx? (s.tenants t).tenantId = some t

theorem Numbered.zeroed : Numbered zeroed :=
  fun _ h => absurd rfl h

/-- A record is rewritten that keeps its number, or gets the right one. -/
theorem Numbered.rewrite (h : Numbered s) {info : TenantInfo}
    (hinfo : info.status ≠ .inactive → tenantIdx? info.tenantId = some t) :
    Numbered (setTenant t info s) := by
  intro u hu
  by_cases hut : u = t
  · subst hut
    simp only [setTenant, Function.update_self] at hu ⊢
    exact hinfo hu
  · simp only [setTenant, Function.update_of_ne hut] at hu ⊢
    exact h u hu

theorem Numbered.of_tenants {s' : TenantSharedMemory} (h : Numbered s)
    (htenants : s'.tenants = s.tenants) : Numbered s' := by
  intro t
  rw [htenants]
  exact h t

theorem Numbered.create (h : Numbered s) (tenantId : UInt32) (name : Option (List UInt8))
    (quota : Option TenantQuota) :
    Numbered (tenantCreate tenantId name quota s).2 := by
  rcases tenantCreate_cases tenantId name quota s with hc | ⟨t, _, ht, _, hc⟩
  · rw [hc]
    exact h
  · rw [hc]
    exact (h.rewrite fun _ => ht).of_tenants rfl

theorem Numbered.delete (h : Numbered s) (tenantId : UInt32) :
    Numbered (tenantDelete tenantId s).2 := by
  rcases tenantDelete_cases tenantId s with hd | ⟨t, _, _, _, hd⟩
  · rw [hd]
    exact h
  · rw [hd]
    have hswept := h.of_tenants (sweepMappings_tenants tenantId s)
    exact (hswept.rewrite (t := t) fun hst => absurd rfl hst).of_tenants rfl

theorem Numbered.bind (h : Numbered s) (pid : Int) (tenantId : UInt32) :
    Numbered (tenantBindProcess pid tenantId s).2 := by
  have hout := tenantBindProcess_outcome pid tenantId s
  generalize tenantBindProcess pid tenantId s = r at hout
  cases hout with
  | refused _ => exact h
  | rebound _ _ => exact h.of_tenants rfl
  | @added i t _ hst _ _ =>
      have ht : (s.tenants t).status ≠ .inactive := by simp [hst]
      have hset : Numbered (setTenant t (enrollProcess pid (s.tenants t)) s) := by
        refine h.rewrite fun _ => ?_
        exact h t ht
      exact hset.of_tenants rfl
  | full _ _ _ => exact h

theorem Numbered.unbind (h : Numbered s) (pid : Int) :
    Numbered (tenantUnbindProcess pid s).2 := by
  rcases tenantUnbindProcess_cases pid s with ⟨_, hu⟩ | ⟨i, _, hu⟩
  · rw [hu]
    exact h
  · rw [hu]
    have hreleased : Numbered (releaseFromTenant pid i s) := by
      unfold releaseFromTenant
      split
      · rename_i t _
        exact h.rewrite (t := t) fun hst => h t hst
      · exact h
    exact hreleased.of_tenants rfl

/-- The calls that may write the quota or the usage of a tenant, and nothing
else. -/
def OfRecord : StoreCall → Prop
  | .updateQuota .. | .updateResourceUsage .. | .getResourceUsage .. | .checkResourceLimit ..
  | .tryAllocateQp .. => True
  | _ => False

theorem storeCall_record {call : StoreCall} (hcall : OfRecord call) (s : TenantSharedMemory) :
    (storeCall s call).2 = s ∨ ∃ t quota usage, (s.tenants t).status ≠ .inactive ∧
      (storeCall s call).2 =
        setTenant t { s.tenants t with quota := quota, usage := usage } s := by
  cases call with
  | updateQuota tenantId quota =>
      cases quota with
      | none => exact .inl rfl
      | some quota =>
          show (tenantUpdateQuota tenantId quota s).2 = s ∨ ∃ t quota' usage, _ ∧
            (tenantUpdateQuota tenantId quota s).2 = _
          unfold tenantUpdateQuota
          split
          · exact .inl rfl
          · next t _ =>
              split
              · exact .inl rfl
              · next hst => exact .inr ⟨t, quota, (s.tenants t).usage, hst, rfl⟩
  | updateResourceUsage tenantId usage =>
      cases usage with
      | none => exact .inl rfl
      | some usage =>
          show (tenantUpdateResourceUsage tenantId usage s).2 = s ∨ ∃ t quota usage', _ ∧
            (tenantUpdateResourceUsage tenantId usage s).2 = _
          unfold tenantUpdateResourceUsage
          split
          · exact .inl rfl
          · next t _ =>
              split
              · exact .inl rfl
              · next hst => exact .inr ⟨t, (s.tenants t).quota, usage, by simp_all, rfl⟩
  | getResourceUsage | checkResourceLimit => exact .inl rfl
  | tryAllocateQp tenantId =>
      show (tenantTryAllocateQp tenantId s).2 = s ∨ ∃ t quota usage, _ ∧
        (tenantTryAllocateQp tenantId s).2 = _
      unfold tenantTryAllocateQp
      split
      · exact .inl rfl
      · next t _ =>
          split
          · exact .inl rfl
          · next hst =>
              have hexists : (s.tenants t).status ≠ .inactive := by simp_all
              dsimp only
              split
              · exact .inr ⟨t, (s.tenants t).quota, _, hexists, rfl⟩
              · exact .inr ⟨t, (s.tenants t).quota, _, hexists, rfl⟩
  | _ => exact hcall.elim

theorem Numbered.record (h : Numbered s) {call : StoreCall} (hcall : OfRecord call) :
    Numbered (storeCall s call).2 := by
  rcases storeCall_record hcall s with hsame | ⟨t, quota, usage, hst, hset⟩
  · rw [hsame]
    exact h
  · rw [hset]
    exact h.rewrite fun _ => h t hst

/-- One call. -/
theorem Numbered.call (h : Numbered s) (call : StoreCall) :
    Numbered (storeCall s call).2 := by
  cases call with
  | create tenantId name quota => exact h.create tenantId name quota
  | delete tenantId => exact h.delete tenantId
  | setStatus tenantId status =>
      rcases tenantSetStatus_cases tenantId status s with hc | ⟨t, _, hst, hc⟩
      · rw [storeCall, hc]
        exact h
      · rw [storeCall, hc]
        exact h.rewrite fun _ => h t hst
  | bindProcess pid tenantId => exact h.bind pid tenantId
  | unbindProcess pid => exact h.unbind pid
  | updateQuota | updateResourceUsage | getResourceUsage | checkResourceLimit | tryAllocateQp =>
      exact h.record trivial

/-! ### The count of tenants -/

/-- Calls that make no tenant INACTIVE other than by deletion. -/
def DeletingStoreCall (s : TenantSharedMemory) (call : StoreCall) (s' : TenantSharedMemory) :
    Prop :=
  (∀ tenantId, call ≠ .setStatus tenantId .inactive) ∧ s' = (storeCall s call).2

theorem lifecycle_record (h : Lifecycle s) {call : StoreCall} (hcall : OfRecord call) :
    Lifecycle (storeCall s call).2 := by
  rcases storeCall_record hcall s with hsame | ⟨t, quota, usage, hst, hset⟩
  · rw [hsame]
    exact h
  · rw [hset]
    have hstatus : statuses (setTenant t { s.tenants t with quota := quota, usage := usage } s) =
        statuses s := by
      rw [statuses_setTenant]
      exact Function.update_eq_self t (statuses s)
    refine h.of_same_statuses hstatus rfl fun i => ?_
    rw [hstatus]
    exact h.homed i

theorem lifecycle_call {s' : TenantSharedMemory} (h : Lifecycle s) {call : StoreCall}
    (hcall : DeletingStoreCall s call s') : Lifecycle s' := by
  obtain ⟨hdeleting, rfl⟩ := hcall
  cases call with
  | create tenantId name quota => exact h.create tenantId name quota
  | delete tenantId => exact h.delete tenantId
  | setStatus tenantId status =>
      refine (h.setStatus_iff tenantId status).mpr ?_
      rintro ⟨rfl, -⟩
      exact hdeleting tenantId rfl
  | bindProcess pid tenantId =>
      exact h.of_same_statuses (statuses_of_ledger (ledger_bind pid tenantId s))
        (tenantBindProcess_activeTenantCount pid tenantId s) (h.homed.bind pid tenantId)
  | unbindProcess pid =>
      exact h.of_same_statuses (statuses_of_ledger (ledger_unbind pid s))
        (tenantUnbindProcess_activeTenantCount pid s) (h.homed.unbind pid)
  | updateQuota | updateResourceUsage | getResourceUsage | checkResourceLimit | tryAllocateQp =>
      exact lifecycle_record h trivial

theorem mem_activeTenants :
    t ∈ activeTenants s ↔ (s.tenants t).status = .active := by
  simp [activeTenants]

theorem activeTenants_pairwise (s : TenantSharedMemory) : (activeTenants s).Pairwise (· < ·) :=
  (List.pairwise_lt_finRange maxTenants).filter _

/-- There are at most as many ACTIVE tenants as the segment counts. -/
theorem activeTenants_length_le (h : Lifecycle s) :
    (activeTenants s).length ≤ s.activeTenantCount.toNat := by
  have hnodup : (activeTenants s).Nodup := (activeTenants_pairwise s).imp fun hlt => hlt.ne
  rw [h.count, ← List.toFinset_card_of_nodup hnodup]
  refine Finset.card_le_card fun t ht => ?_
  rw [List.mem_toFinset, mem_activeTenants] at ht
  rw [mem_used, statuses, ht]
  decide

theorem toNat_of_tenantIdx {tenantId : UInt32} (h : tenantIdx? tenantId = some t) :
    tenantId.toNat = t.val := by
  unfold tenantIdx? at h
  split at h
  · exact congrArg Fin.val (Option.some.inj h)
  · cases h

/-- **The listing is exact.**  After any calls that end tenants by deletion only,
`tenant_get_active_list` copies out the records of ACTIVE tenants in the order
of their numbers, each once and each as it is in the store, as many as there is
room for; room for as many as the segment counts is room for all. -/
theorem active_list_exact {calls : List StoreCall} {s : TenantSharedMemory}
    (hrun : Run DeletingStoreCall zeroed calls s) {maxCount : Int} (hmax : 0 < maxCount) :
    ∃ records, tenantGetActiveList maxCount s = some records ∧
      records.length = min maxCount.toNat (activeTenants s).length ∧
      (records.map fun r => r.tenantId.toNat).Pairwise (· < ·) ∧
      (∀ r ∈ records, ∃ t, tenantIdx? r.tenantId = some t ∧ s.tenants t = r ∧
        r.status = .active) ∧
      ((s.activeTenantCount.toNat : Int) ≤ maxCount →
        ∀ t, (s.tenants t).status = .active → s.tenants t ∈ records) := by
  have hlife : Lifecycle s := hrun.invariant Lifecycle.zeroed fun _ _ _ h hcall =>
    lifecycle_call h hcall
  have hnumbered : Numbered s := by
    refine hrun.invariant Numbered.zeroed ?_
    rintro s₁ call s₂ h ⟨-, rfl⟩
    exact h.call call
  have hidx : ∀ {t}, t ∈ activeTenants s → tenantIdx? (s.tenants t).tenantId = some t := by
    intro t ht
    exact hnumbered t (by simp [mem_activeTenants.mp ht])
  refine ⟨_, tenantGetActiveList_eq hmax s, ?_, ?_, ?_, ?_⟩
  · rw [List.length_take, List.length_map]
  · rw [List.map_take]
    refine List.Pairwise.take ?_
    rw [List.map_map, List.pairwise_map]
    refine (activeTenants_pairwise s).imp_of_mem fun {t u} ht hu hlt => ?_
    show (s.tenants t).tenantId.toNat < (s.tenants u).tenantId.toNat
    rw [toNat_of_tenantIdx (hidx ht), toNat_of_tenantIdx (hidx hu)]
    exact hlt
  · intro r hr
    obtain ⟨t, ht, rfl⟩ := List.mem_map.mp (List.mem_of_mem_take hr)
    exact ⟨t, hidx ht, rfl, mem_activeTenants.mp ht⟩
  · intro hroom t ht
    have hlength := activeTenants_length_le hlife
    rw [List.take_of_length_le (by rw [List.length_map]; omega)]
    exact List.mem_map_of_mem (mem_activeTenants.mpr ht)

/-- Tenants 5, 1 and 2 are created in this order, and 1 is suspended. -/
def twoActive : List StoreCall :=
  [.create 5 none none, .create 1 none none, .create 2 none none, .setStatus 1 .suspended]

/-- The segment counts three tenants.  The listing has room for them and copies
the two ACTIVE ones. -/
theorem active_list_exact_two :
    ∃ records, tenantGetActiveList 3 (storeAfter twoActive) = some records ∧
      records.length = 2 ∧ (storeAfter twoActive).tenants 2 ∈ records ∧
      (storeAfter twoActive).tenants 5 ∈ records := by
  have hrun : Run DeletingStoreCall zeroed twoActive (storeAfter twoActive) :=
    Run.start.snoc ⟨nofun, rfl⟩ |>.snoc ⟨nofun, rfl⟩ |>.snoc ⟨nofun, rfl⟩ |>.snoc ⟨nofun, rfl⟩
  obtain ⟨records, hlist, hlength, -, -, hall⟩ :=
    active_list_exact hrun (show (0 : Int) < 3 by decide)
  have hroom : ((storeAfter twoActive).activeTenantCount.toNat : Int) ≤ 3 := by decide
  exact ⟨records, hlist, hlength.trans (by decide), hall hroom 2 rfl, hall hroom 5 rfl⟩

/-! ## Without the lock

Every field is one access, except a name, which `json_object_new_string` reads
byte by byte: once to find its end, and once more to copy it. -/

/-- A row of `LIST_TENANTS`. -/
structure ListRow where
  id : Int32
  name : List UInt8
  qpUsed : Int32
  qpLimit : Int32
  mrUsed : Int32
  mrLimit : Int32

/-- A row of `STATUS`. -/
structure StatusRow extends ListRow where
  status : TenantStatus
  memoryUsed : Int64
  memoryLimit : Int64

/-- A field of a tenant's record is read. -/
def column {α : Type} (t : TenantIdx) (field : TenantInfo → α) : Code Segment α :=
  .read fun g => field (g.store.tenants t)

/-- The byte at position `k` of the name; behind the name there are zeros. -/
def nameByte (k : Nat) (r : TenantInfo) : UInt8 := (r.tenantName[k]?).getD 0

/-- `strlen` of the name from position `k` on, within the `room` bytes that are
left of the array. -/
def nameLength (t : TenantIdx) : Nat → Nat → Code Segment Nat
  | k, 0 => return k
  | k, room + 1 => do
      let byte ← column t (nameByte k)
      if byte = 0 then return k
      nameLength t (k + 1) room

/-- The `left` bytes of the name from position `k` on. -/
def copyName (t : TenantIdx) : Nat → Nat → Code Segment (List UInt8)
  | _, 0 => return []
  | k, left + 1 => do
      let byte ← column t (nameByte k)
      return byte :: (← copyName t (k + 1) left)

/-- What `json_object_new_string` makes of the name. -/
def readName (t : TenantIdx) : Code Segment (List UInt8) := do
  copyName t 0 (← nameLength t 0 tenantNameMax)

def listRow (t : TenantIdx) : Code Segment ListRow := do
  let id ← column t fun r => r.tenantId.toInt32
  let name ← readName t
  let qpUsed ← column t fun r => r.usage.qpCount
  let qpLimit ← column t fun r => r.quota.maxQpPerTenant.toInt32
  let mrUsed ← column t fun r => r.usage.mrCount
  let mrLimit ← column t fun r => r.quota.maxMrPerTenant.toInt32
  return ⟨id, name, qpUsed, qpLimit, mrUsed, mrLimit⟩

def statusRow (t : TenantIdx) : Code Segment StatusRow := do
  let id ← column t fun r => r.tenantId.toInt32
  let name ← readName t
  let status ← column t fun r => r.status
  let qpUsed ← column t fun r => r.usage.qpCount
  let qpLimit ← column t fun r => r.quota.maxQpPerTenant.toInt32
  let mrUsed ← column t fun r => r.usage.mrCount
  let mrLimit ← column t fun r => r.quota.maxMrPerTenant.toInt32
  let memoryUsed ← column t fun r => r.usage.memoryUsed.toInt64
  let memoryLimit ← column t fun r => r.quota.maxMemoryPerTenant.toInt64
  return ⟨⟨id, name, qpUsed, qpLimit, mrUsed, mrLimit⟩, status, memoryUsed, memoryLimit⟩

/-- The body of both loops: a row, unless the tenant is INACTIVE. -/
def visit {ρ : Type} (row : TenantIdx → Code Segment ρ) (t : TenantIdx) :
    Code Segment (Option ρ) := do
  let status ← column t fun r => r.status
  if status = .inactive then return none
  return some (← row t)

/-- Both loops. -/
def rows {ρ : Type} (row : TenantIdx → Code Segment ρ) : Code Segment (List ρ) :=
  .collect (visit row) (fun _ => true) 0 (List.finRange maxTenants)

/-- The data of `LIST_TENANTS`. -/
structure TenantList where
  count : Int32
  version : Int64
  tenants : List ListRow

/-- `handle_list_tenants`. -/
def handleListTenants : Code Segment TenantList := do
  let tenants ← rows listRow
  let version ← .read fun g => g.version.toInt64
  return ⟨Int32.ofNat tenants.length, version, tenants⟩

/-- `handle_status` without a number: the array of all tenants. -/
def handleStatusAll : Code Segment (List StatusRow) := rows statusRow

/-! ### Consistency -/

/-- In one of the memories the field of tenant `t` had this value. -/
def Was {α : Type} (ms : List Segment) (t : TenantIdx) (field : TenantInfo → α) (a : α) : Prop :=
  ∃ m ∈ ms, field (m.store.tenants t) = a

/-- Each byte of the name was at its place in one of the memories and was not the
end of it in one of them, and behind the last byte the name ended in one of
them. -/
structure NameFrom (ms : List Segment) (t : TenantIdx) (name : List UInt8) : Prop where
  byte : ∀ k b, name[k]? = some b → Was ms t (nameByte k) b
  inside : ∀ k, k < name.length → ∃ b, b ≠ 0 ∧ Was ms t (nameByte k) b
  length_le : name.length ≤ tenantNameMax
  ends : name.length < tenantNameMax → Was ms t (nameByte name.length) 0

/-- Every column comes from one of the memories. -/
structure ListRow.From (ms : List Segment) (t : TenantIdx) (r : ListRow) : Prop where
  id : Was ms t (fun r => r.tenantId.toInt32) r.id
  name : NameFrom ms t r.name
  qpUsed : Was ms t (fun r => r.usage.qpCount) r.qpUsed
  qpLimit : Was ms t (fun r => r.quota.maxQpPerTenant.toInt32) r.qpLimit
  mrUsed : Was ms t (fun r => r.usage.mrCount) r.mrUsed
  mrLimit : Was ms t (fun r => r.quota.maxMrPerTenant.toInt32) r.mrLimit

structure StatusRow.From (ms : List Segment) (t : TenantIdx) (r : StatusRow) : Prop extends
    ListRow.From ms t r.toListRow where
  status : Was ms t (fun r => r.status) r.status
  memoryUsed : Was ms t (fun r => r.usage.memoryUsed.toInt64) r.memoryUsed
  memoryLimit : Was ms t (fun r => r.quota.maxMemoryPerTenant.toInt64) r.memoryLimit

/-- What may be found at a number: nothing, if the tenant was INACTIVE in one of
the memories, or a row, if it existed in one of them. -/
def Findable {ρ : Type} (row : TenantIdx → ρ → Prop) (ms : List Segment) (t : TenantIdx) :
    Option ρ → Prop
  | none => ∃ m ∈ ms, (m.store.tenants t).status = .inactive
  | some r => (∃ m ∈ ms, (m.store.tenants t).status ≠ .inactive) ∧ row t r

/-- One find for each number, and the rows are the finds in order. -/
def Consistent {ρ : Type} (row : TenantIdx → ρ → Prop) (ms : List Segment) (rows : List ρ) :
    Prop :=
  ∃ finds, List.Forall₂ (Findable row ms) (List.finRange maxTenants) finds ∧
    rows = finds.filterMap id

/-- There are no more rows than numbers. -/
theorem Consistent.length_le {ρ : Type} {row : TenantIdx → ρ → Prop} {rows : List ρ}
    (h : Consistent row ms rows) : rows.length ≤ maxTenants := by
  obtain ⟨finds, hfinds, rfl⟩ := h
  have hlength := hfinds.length_eq
  rw [List.length_finRange] at hlength
  rw [hlength]
  exact List.length_filterMap_le id finds

/-- A column is read; the memories are some of `all`. -/
theorem column_bind_seen {α β : Type} {field : TenantInfo → α} {k : α → Code Segment β} {b : β}
    (hms : ms ⊆ all) (h : (column t field >>= k).seen ms = some (b, rest)) :
    ∃ a later, Was all t field a ∧ later ⊆ all ∧ (k a).seen later = some (b, rest) := by
  cases ms with
  | nil => cases h
  | cons m later =>
      rw [column, Code.seen_read_bind] at h
      obtain ⟨hm, hlater⟩ := List.cons_subset.mp hms
      exact ⟨_, later, ⟨m, hm, rfl⟩, hlater, h⟩

theorem nameLength_seen {n : Nat} (room : Nat) :
    ∀ {k : Nat} {ms : List Segment}, ms ⊆ all →
      (nameLength t k room).seen ms = some (n, rest) →
      k ≤ n ∧ n ≤ k + room ∧ rest ⊆ all ∧ (n < k + room → Was all t (nameByte n) 0) ∧
        ∀ j, k ≤ j → j < n → ∃ b, b ≠ 0 ∧ Was all t (nameByte j) b := by
  induction room with
  | zero =>
      intro k ms hms h
      rw [nameLength, Code.seen_pure] at h
      obtain ⟨rfl, rfl⟩ := Prod.mk.inj (Option.some.inj h)
      exact ⟨le_rfl, le_rfl, hms, fun hlt => absurd hlt (by omega), fun j _ _ => by omega⟩
  | succ room ih =>
      intro k ms hms h
      obtain ⟨byte, later, hbyte, hlater, h⟩ := column_bind_seen hms h
      by_cases hzero : byte = 0
      · rw [if_pos hzero, Code.seen_pure] at h
        obtain ⟨rfl, rfl⟩ := Prod.mk.inj (Option.some.inj h)
        exact ⟨le_rfl, by omega, hlater, fun _ => hzero ▸ hbyte, fun j _ _ => by omega⟩
      · rw [if_neg hzero] at h
        obtain ⟨hle, hroom, hrest, hend, hinside⟩ := ih hlater h
        refine ⟨by omega, by omega, hrest, fun hlt => hend (by omega), fun j hj hjn => ?_⟩
        by_cases hjk : j = k
        · exact ⟨byte, hzero, hjk ▸ hbyte⟩
        · exact hinside j (by omega) hjn

theorem copyName_seen (left : Nat) :
    ∀ {k : Nat} {ms : List Segment} {bytes : List UInt8}, ms ⊆ all →
      (copyName t k left).seen ms = some (bytes, rest) →
      bytes.length = left ∧ rest ⊆ all ∧
        ∀ j b, bytes[j]? = some b → Was all t (nameByte (k + j)) b := by
  induction left with
  | zero =>
      intro k ms bytes hms h
      rw [copyName, Code.seen_pure] at h
      obtain ⟨rfl, rfl⟩ := Prod.mk.inj (Option.some.inj h)
      exact ⟨rfl, hms, fun j b hj => nomatch hj⟩
  | succ left ih =>
      intro k ms bytes hms h
      obtain ⟨byte, later, hbyte, hlater, h⟩ := column_bind_seen hms h
      simp only [Code.seen_bind, Option.bind_eq_some_iff] at h
      obtain ⟨⟨more, last⟩, hmore, hret⟩ := h
      rw [Code.seen_pure] at hret
      obtain ⟨rfl, rfl⟩ := Prod.mk.inj (Option.some.inj hret)
      obtain ⟨hlength, hrest, hbytes⟩ := ih hlater hmore
      refine ⟨by rw [List.length_cons, hlength], hrest, fun j b hj => ?_⟩
      cases j with
      | zero => exact Option.some.inj hj ▸ hbyte
      | succ j =>
          have hplace : k + (j + 1) = k + 1 + j := by omega
          exact hplace ▸ hbytes j b hj

/-- A name is read; the memories are some of `all`. -/
theorem readName_bind_seen {β : Type} {k : List UInt8 → Code Segment β} {b : β} (hms : ms ⊆ all)
    (h : (readName t >>= k).seen ms = some (b, rest)) :
    ∃ name later, NameFrom all t name ∧ later ⊆ all ∧ (k name).seen later = some (b, rest) := by
  simp only [readName, Code.seen_bind, Option.bind_eq_some_iff] at h
  obtain ⟨⟨name, later⟩, ⟨⟨n, between⟩, hlength, hcopy⟩, h⟩ := h
  obtain ⟨-, hroom, hbetween, hend, hinside⟩ := nameLength_seen tenantNameMax hms hlength
  obtain ⟨rfl, hlater, hbytes⟩ := copyName_seen n hbetween hcopy
  refine ⟨name, later, ⟨?_, ?_, by omega, fun hlt => hend (by omega)⟩, hlater, h⟩
  · intro j b hj
    have hbyte := hbytes j b hj
    rwa [Nat.zero_add] at hbyte
  · exact fun j hj => hinside j (Nat.zero_le j) hj

theorem listRow_from {r : ListRow} (hms : ms ⊆ all) (h : (listRow t).seen ms = some (r, rest)) :
    r.From all t := by
  obtain ⟨id, _, hid, hms, h⟩ := column_bind_seen hms h
  obtain ⟨name, _, hname, hms, h⟩ := readName_bind_seen hms h
  obtain ⟨qpUsed, _, hqpUsed, hms, h⟩ := column_bind_seen hms h
  obtain ⟨qpLimit, _, hqpLimit, hms, h⟩ := column_bind_seen hms h
  obtain ⟨mrUsed, _, hmrUsed, hms, h⟩ := column_bind_seen hms h
  obtain ⟨mrLimit, _, hmrLimit, -, h⟩ := column_bind_seen hms h
  rw [Code.seen_pure] at h
  obtain ⟨rfl, -⟩ := Prod.mk.inj (Option.some.inj h)
  exact ⟨hid, hname, hqpUsed, hqpLimit, hmrUsed, hmrLimit⟩

theorem statusRow_from {r : StatusRow} (hms : ms ⊆ all)
    (h : (statusRow t).seen ms = some (r, rest)) : r.From all t := by
  obtain ⟨id, _, hid, hms, h⟩ := column_bind_seen hms h
  obtain ⟨name, _, hname, hms, h⟩ := readName_bind_seen hms h
  obtain ⟨status, _, hstatus, hms, h⟩ := column_bind_seen hms h
  obtain ⟨qpUsed, _, hqpUsed, hms, h⟩ := column_bind_seen hms h
  obtain ⟨qpLimit, _, hqpLimit, hms, h⟩ := column_bind_seen hms h
  obtain ⟨mrUsed, _, hmrUsed, hms, h⟩ := column_bind_seen hms h
  obtain ⟨mrLimit, _, hmrLimit, hms, h⟩ := column_bind_seen hms h
  obtain ⟨memoryUsed, _, hmemoryUsed, hms, h⟩ := column_bind_seen hms h
  obtain ⟨memoryLimit, _, hmemoryLimit, -, h⟩ := column_bind_seen hms h
  rw [Code.seen_pure] at h
  obtain ⟨rfl, -⟩ := Prod.mk.inj (Option.some.inj h)
  exact ⟨⟨hid, hname, hqpUsed, hqpLimit, hmrUsed, hmrLimit⟩, hstatus, hmemoryUsed, hmemoryLimit⟩

section Rows

variable {ρ : Type} {row : TenantIdx → Code Segment ρ} {From : TenantIdx → ρ → Prop}
  {all : List Segment}

/-- One turn of the loop, given what is known of the rows. -/
theorem visit_findable
    (hrow : ∀ {t ms rest r}, ms ⊆ all → (row t).seen ms = some (r, rest) → From t r)
    {found : Option ρ} (hms : ms ⊆ all) (h : (visit row t).seen ms = some (found, [])) :
    Findable From all t found := by
  obtain ⟨status, later, ⟨m, hm, hstatus⟩, hlater, h⟩ := column_bind_seen hms h
  by_cases hinactive : status = .inactive
  · rw [if_pos hinactive, Code.seen_pure] at h
    obtain ⟨rfl, -⟩ := Prod.mk.inj (Option.some.inj h)
    exact ⟨m, hm, hstatus.trans hinactive⟩
  · rw [if_neg hinactive] at h
    simp only [Code.seen_bind, Option.bind_eq_some_iff] at h
    obtain ⟨⟨r, rest⟩, hr, hret⟩ := h
    rw [Code.seen_pure] at hret
    obtain ⟨rfl, -⟩ := Prod.mk.inj (Option.some.inj hret)
    exact ⟨⟨m, hm, fun hst => hinactive (hstatus.symm.trans hst)⟩, hrow hlater hr⟩

theorem rows_consistent
    (hrow : ∀ {t ms rest r}, ms ⊆ all → (row t).seen ms = some (r, rest) → From t r) {rs : List ρ}
    (h : (rows row).seen all = some (rs, rest)) :
    Consistent From all rs := by
  obtain ⟨finds, hfinds, hrs⟩ := Code.seen_collect _ h
  refine ⟨finds, hfinds.imp ?_, hrs⟩
  rintro t found ⟨ms, hms, hfound⟩
  exact visit_findable hrow hms hfound

theorem atMost_rows {n : Nat} (hrow : ∀ t, (row t).AtMost n) :
    (rows row).AtMost (maxTenants * (n + 1)) := by
  have hvisit : ∀ t, (visit row t).AtMost (n + 1) := by
    intro t
    refine .read_bind fun status => ?_
    split
    · exact .pure n none
    · exact (hrow t).bind_pure some
  have hcollect := Code.AtMost.collect hvisit (fun _ => true) (List.finRange maxTenants) 0
  rwa [List.length_finRange] at hcollect

end Rows

theorem atMost_nameLength (t : TenantIdx) (room : Nat) :
    ∀ k, (nameLength t k room).AtMost room := by
  induction room with
  | zero => exact fun k => .pure 0 k
  | succ room ih => exact fun k => .read_bind fun _ => .ite (.pure room k) (ih (k + 1))

theorem atMost_copyName (t : TenantIdx) (left : Nat) : ∀ k, (copyName t k left).AtMost left := by
  induction left with
  | zero => exact fun k => .pure 0 []
  | succ left ih => exact fun k => .read_bind fun byte => (ih (k + 1)).bind_pure (byte :: ·)

theorem nameLength_answers (t : TenantIdx) (room : Nat) :
    ∀ k, (nameLength t k room).Answers (fun _ => True) (· ≤ k + room) := by
  induction room with
  | zero => exact fun k => Nat.le_refl k
  | succ room ih =>
      intro k
      rw [nameLength, column, Code.answers_read_bind]
      intro s _
      rw [Code.answers_ite]
      split
      · exact Nat.le_add_right k (room + 1)
      · have hmore := ih (k + 1)
        rwa [Nat.add_right_comm] at hmore

/-- Twice the array at most. -/
theorem atMost_readName (t : TenantIdx) : (readName t).AtMost 128 :=
  (atMost_nameLength t tenantNameMax 0).bind_answers (nameLength_answers t tenantNameMax 0)
    fun n hn => (atMost_copyName t n 0).mono (by rwa [Nat.zero_add] at hn)

theorem atMost_listRow (t : TenantIdx) : (listRow t).AtMost 133 :=
  .read_bind fun _ => (atMost_readName t).bind_add fun _ => .read_bind fun _ =>
    .read_bind fun _ => .read_bind fun _ => .read_bind fun _ => .pure 0 _

theorem atMost_statusRow (t : TenantIdx) : (statusRow t).AtMost 136 :=
  .read_bind fun _ => (atMost_readName t).bind_add fun _ => .read_bind fun _ =>
    .read_bind fun _ => .read_bind fun _ => .read_bind fun _ => .read_bind fun _ =>
      .read_bind fun _ => .read_bind fun _ => .pure 0 _

/-- **Listings without the lock.**  Whatever others do to the segment between the
reads, `LIST_TENANTS` is done after 17153 reads and `STATUS` after 17536.  Both
find each number once and in order: a tenant that existed in all memories they
read is listed, one that existed in none is not, every number in a row was in
the record at one of the reads, and every byte of a name was at its place at one
of them.  The count is that of the rows. -/
theorem unlocked_listings_consistent :
    (∀ ms : List Segment, 17153 ≤ ms.length → ∃ data rest,
      handleListTenants.seen ms = some (data, rest) ∧
      Consistent (ListRow.From ms) ms data.tenants ∧
      data.count.toInt = data.tenants.length ∧ ∃ m ∈ ms, data.version = m.version.toInt64) ∧
    ∀ ms : List Segment, 17536 ≤ ms.length → ∃ rs rest,
      handleStatusAll.seen ms = some (rs, rest) ∧ Consistent (StatusRow.From ms) ms rs := by
  refine ⟨fun ms hms => ?_, fun ms hms => ?_⟩
  · have hdone : (handleListTenants.seen ms).isSome :=
      ((atMost_rows atMost_listRow).bind fun _ => .read_bind fun _ => .pure 0 _).seen_isSome hms
    obtain ⟨⟨data, rest⟩, hdata⟩ := Option.isSome_iff_exists.mp hdone
    refine ⟨data, rest, hdata, ?_⟩
    simp only [handleListTenants, Code.seen_bind, Option.bind_eq_some_iff] at hdata
    obtain ⟨⟨rs, later⟩, hrs, ⟨version, last⟩, hversion, hret⟩ := hdata
    have hconsistent : Consistent (ListRow.From ms) ms rs := rows_consistent listRow_from hrs
    obtain ⟨used, hsplit, -⟩ := Code.seen_split hrs
    rw [Code.seen_pure] at hret
    obtain ⟨rfl, -⟩ := Prod.mk.inj (Option.some.inj hret)
    refine ⟨hconsistent, ?_, ?_⟩
    · exact Int32.toInt_ofNat_of_lt (hconsistent.length_le.trans_lt (by decide))
    · cases later with
      | nil => cases hversion
      | cons m later =>
          obtain ⟨rfl, -⟩ := Prod.mk.inj (Option.some.inj hversion)
          exact ⟨m, by simp [hsplit], rfl⟩
  · have hdone : (handleStatusAll.seen ms).isSome := (atMost_rows atMost_statusRow).seen_isSome hms
    obtain ⟨⟨rs, rest⟩, hrs⟩ := Option.isSome_iff_exists.mp hdone
    exact ⟨rs, rest, hrs, rows_consistent statusRow_from hrs⟩

/-- Tenants 1 and 2 have been made. -/
def twoMade : Segment :=
  { TenantSegment.blank with
    store := (tenantCreate 2 none none (tenantCreate 1 none none zeroed).2).2
    version := 3 }

/-- The first two reads find the blank segment, the others both tenants: they are
made after the listing has passed number 1. -/
def madeMeanwhile : List Segment :=
  TenantSegment.blank :: TenantSegment.blank :: List.replicate 17151 twoMade

/-- The listing has tenant 2 only. -/
theorem unlocked_listings_consistent_meanwhile : ∃ data rest,
    handleListTenants.seen madeMeanwhile = some (data, rest) ∧
      Consistent (ListRow.From madeMeanwhile) madeMeanwhile data.tenants ∧
      data.tenants.map (fun r => r.id) = [2] ∧ data.count = 1 ∧ data.version = 3 := by
  have hlength : 17153 ≤ madeMeanwhile.length := by
    rw [madeMeanwhile, List.length_cons, List.length_cons, List.length_replicate]
  have hlisted : (handleListTenants.seen madeMeanwhile).map
      (fun r => (r.1.tenants.map fun row => row.id, r.1.count, r.1.version)) =
        some ([2], 1, 3) := by decide +kernel
  obtain ⟨data, rest, hdata, hconsistent, -, -⟩ := unlocked_listings_consistent.1 _ hlength
  rw [hdata, Option.map_some] at hlisted
  obtain ⟨hids, hrest⟩ := Prod.mk.inj (Option.some.inj hlisted)
  obtain ⟨hcount, hversion⟩ := Prod.mk.inj hrest
  exact ⟨data, rest, hdata, hconsistent, hids, hcount, hversion⟩

end MtRdma.Ports.TenantListings
