import MtRdma.Ports.TableWrites

/-!
# The eBPF sync (`collector_server_shm.c`)

A pass of `sync_ebpf_data_to_shared_memory` first overwrites the totals with
the global entry of the eBPF maps, and then updates the entry of every process
of the maps.  Each of these updates moves the totals by the difference to the
old entry, so the totals end up right only if these differences cancel out:
if the entries of the processes in the map added up to the global entry
already.
-/

namespace MtRdma.Ports.EbpfSync

open Verified
open Verified.SlotScan
open Verified.WriteBuffer
open SharedMemory

/-! ## The pass -/

/-- What the collector gets to see of the two maps: whether they could be
opened, what the lookup of the global entry gives, and the keys that
`bpf_map_get_next_key` enumerates with what their lookups give. -/
structure EbpfMaps where
  globalOpen : Bool
  globalLookup : Option ResourceUsage
  processOpen : Bool
  processLookups : List (UInt32 × Option ResourceUsage)

/-- The conversion of a key to `pid_t`. -/
def pidOfKey (key : UInt32) : Int := key.toInt32.toInt

/-- One round of the loop. -/
def syncEntry (start : Int → UInt64) (s : SharedMemoryData)
    (entry : UInt32 × Option ResourceUsage) : SharedMemoryData :=
  match entry.2 with
  | some usage =>
      (shmUpdateProcessResources (pidOfKey entry.1) usage (start (pidOfKey entry.1)) s).2
  | none => s

/-- `sync_ebpf_data_to_shared_memory`. -/
def syncEbpfDataToSharedMemory (start : Int → UInt64) (maps : EbpfMaps)
    (s : SharedMemoryData) : SharedMemoryData :=
  let synced :=
    if maps.globalOpen then
      match maps.globalLookup with
      | some usage => { s with globalStats := usage, version := s.version + 1 }
      | none => s
    else s
  if maps.processOpen then maps.processLookups.foldl (syncEntry start) synced else synced

/-- Maps that can be read, with this global entry and these processes. -/
def readableMaps (total : ResourceUsage) (entries : List (UInt32 × ResourceUsage)) : EbpfMaps where
  globalOpen := true
  globalLookup := some total
  processOpen := true
  processLookups := entries.map fun e => (e.1, some e.2)

/-- The entries as updates of the table. -/
def updatesOf (entries : List (UInt32 × ResourceUsage)) : List (Int × ResourceUsage) :=
  entries.map fun e => (pidOfKey e.1, e.2)

/-- The block that overwrites the totals is the body of
`shm_update_global_resources`. -/
theorem sync_readableMaps (start : Int → UInt64) (total : ResourceUsage)
    (entries : List (UInt32 × ResourceUsage)) (s : SharedMemoryData) :
    syncEbpfDataToSharedMemory start (readableMaps total entries) s =
      drain (updateTable start) (updatesOf entries) (shmUpdateGlobalResources total s) := by
  unfold syncEbpfDataToSharedMemory drain updatesOf
  rw [List.foldl_map]
  show (entries.map fun e => (e.1, some e.2)).foldl (syncEntry start) _ = _
  rw [List.foldl_map]
  rfl

/-! ## What a series of updates does to the totals -/

/-- Field by field sum, in the field's own width. -/
def usageSum (usages : List ResourceUsage) : ResourceUsage := usages.foldr .add .zero

theorem add_sub_zero (a : ResourceUsage) : a.add (ResourceUsage.zero.sub .zero) = a := by
  cases a
  simp only [ResourceUsage.add, ResourceUsage.sub, ResourceUsage.zero]
  congr 1 <;> grind

/-- Two moves of the totals are one. -/
theorem add_sub_add_sub (a u v x y : ResourceUsage) :
    (a.add (u.sub x)).add (v.sub y) = a.add ((u.add v).sub (x.add y)) := by
  simp only [ResourceUsage.add, ResourceUsage.sub]
  congr 1 <;> grind

theorem add_sub_eq_self_iff (a x : ResourceUsage) : a.add (a.sub x) = a ↔ x = a := by
  obtain ⟨qp, mr, memory⟩ := a
  obtain ⟨qp', mr', memory'⟩ := x
  simp only [ResourceUsage.add, ResourceUsage.sub, ResourceUsage.mk.injEq]
  grind

section Totals

variable {start : Int → UInt64} {s : SharedMemoryData} {updates : List (Int × ResourceUsage)}

/-- The totals move from the old usages to the new ones. -/
theorem globalStats_drain (hwf : TableWf s) (hmerged : Merged updates) (hfits : Fits updates s) :
    (drain (updateTable start) updates s).globalStats =
      s.globalStats.add ((usageSum (updates.map Prod.snd)).sub
        (usageSum (updates.map fun e => storedUsage s e.1))) := by
  induction updates generalizing s with
  | nil => exact (add_sub_zero s.globalStats).symm
  | cons e rest ih =>
      obtain ⟨hnot, hrest⟩ := List.nodup_cons.mp hmerged
      obtain ⟨i, hslot⟩ := hfits.head
      have hwf' : TableWf (updateTable start e.1 e.2 s) := hwf.update e.1 e.2 (start e.1)
      have hsame : rest.map (fun e' => storedUsage (updateTable start e.1 e.2 s) e'.1) =
          rest.map fun e' => storedUsage s e'.1 := by
        apply List.map_congr_left
        intro e' he'
        have hne : e'.1 ≠ e.1 := by
          intro heq
          exact hnot (heq ▸ List.mem_map_of_mem he')
        unfold storedUsage
        rw [get_update_of_ne (hfits.pid_pos e' (List.mem_cons_of_mem e he')) hne]
      show (drain (updateTable start) rest (updateTable start e.1 e.2 s)).globalStats = _
      rw [ih hwf' hrest hfits.tail, hsame, globalStats_update hwf hslot]
      exact add_sub_add_sub _ _ _ _ _

/-- Pids that fit into the table together with those that are there. -/
theorem fits_of_card (hwf : TableWf s) (hpos : ∀ e ∈ updates, 0 < e.1)
    (hcard : ((usageMap s).keys ∪ (updates.map Prod.fst).toFinset).card ≤ maxProcesses) :
    Fits updates s := by
  refine ⟨hpos, ?_⟩
  have hused : (usageMap s).keys.card = (used 0 s.processPids).card :=
    BoundedMap.card_keys_ofSlots hwf.distinct
  have hdisjoint : Disjoint (usageMap s).keys
      (newcomers (updates.map Prod.fst).toFinset s) := by
    rw [Finset.disjoint_right]
    intro pid hpid hkey
    obtain ⟨hmem, hnone⟩ := Finset.mem_filter.mp hpid
    obtain ⟨e, he, rfl⟩ := List.mem_map.mp (List.mem_toFinset.mp hmem)
    have hget : (usageMap s).get e.1 = (lookup s.processPids e.1).map s.processStats :=
      BoundedMap.get_ofSlots (hpos e he).ne'
    rw [BoundedMap.mem_keys, hget, Option.isNone_iff_eq_none.mp hnone] at hkey
    cases hkey
  have hle := Finset.card_le_card (Finset.union_subset_union_right (s := (usageMap s).keys)
    (Finset.filter_subset (fun p => (lookup s.processPids p).isNone)
      (updates.map Prod.fst).toFinset))
  unfold newcomers at hdisjoint
  rw [Finset.card_union_of_disjoint hdisjoint, hused] at hle
  exact hle.trans hcard

end Totals

theorem pidOfKey_injective : Function.Injective pidOfKey := by
  intro a b h
  have h32 : a.toInt32 = b.toInt32 := Int32.toInt_inj.mp h
  simpa using congrArg Int32.toUInt32 h32

/-! ## The result of a pass -/

section Result

variable {start : Int → UInt64} {s : SharedMemoryData} {total : ResourceUsage}
  {entries : List (UInt32 × ResourceUsage)}

theorem merged_updatesOf (h : (entries.map Prod.fst).Nodup) : Merged (updatesOf entries) := by
  have hpids : (updatesOf entries).map Prod.fst = (entries.map Prod.fst).map pidOfKey := by
    unfold updatesOf
    rw [List.map_map, List.map_map]
    rfl
  unfold Merged
  rw [hpids]
  exact h.map pidOfKey_injective

/-- Only positive pids have entries. -/
theorem get_eq_none_of_nonpos (hwf : TableWf s) {pid : Int} (h : pid ≤ 0) :
    (usageMap s).get pid = none := by
  unfold usageMap
  by_cases hzero : pid = 0
  · rw [hzero, BoundedMap.get_ofSlots_hole]
  · rw [BoundedMap.get_ofSlots hzero, (lookup_eq_none_iff _ _).mpr]
    · rfl
    · intro i heq
      have hnonneg := hwf.pid_nonneg i
      omega

theorem tableWf_totals (hwf : TableWf s) : TableWf (shmUpdateGlobalResources total s) :=
  ⟨hwf.distinct, hwf.pid_nonneg, hwf.hole_stats, hwf.hole_start⟩

theorem tableWf_sync (hwf : TableWf s) :
    TableWf (syncEbpfDataToSharedMemory start (readableMaps total entries) s) := by
  rw [sync_readableMaps]
  refine drain_invariant (P := TableWf) ?_ (tableWf_totals hwf)
  intro e _ t ht
  exact ht.update e.1 e.2 (start e.1)

/-- The pids of the maps are positive, and the table has a place for them. -/
structure Syncable (s : SharedMemoryData) (entries : List (UInt32 × ResourceUsage)) : Prop where
  wf : TableWf s
  merged : Merged (updatesOf entries)
  fits : Fits (updatesOf entries) s

/-- The global entry is overwritten first, and moved again by every update. -/
theorem globalStats_sync (h : Syncable s entries) :
    (syncEbpfDataToSharedMemory start (readableMaps total entries) s).globalStats =
      total.add ((usageSum (entries.map Prod.snd)).sub
        (usageSum (entries.map fun e => storedUsage s (pidOfKey e.1)))) := by
  have hfits : Fits (updatesOf entries) (shmUpdateGlobalResources total s) :=
    ⟨h.fits.pid_pos, h.fits.room⟩
  rw [sync_readableMaps, globalStats_drain (tableWf_totals h.wf) h.merged hfits]
  unfold updatesOf
  rw [List.map_map, List.map_map]
  rfl

theorem get_sync (h : Syncable s entries) {e : UInt32 × ResourceUsage} (he : e ∈ entries) :
    (usageMap (syncEbpfDataToSharedMemory start (readableMaps total entries) s)).get
      (pidOfKey e.1) = some e.2 := by
  rw [sync_readableMaps]
  exact get_drain_of_mem h.merged ⟨h.fits.pid_pos, h.fits.room⟩ (List.mem_map_of_mem he)

/-- **When a pass is exact.**  For maps whose global entry is the sum of their
process entries, and at most 1024 pids in maps and table together, the totals
are the global entry afterwards, and every process of the maps has its usage in
the table, if and only if the keys are positive pids and the usages recorded
for them before the pass added up to the global entry. -/
theorem sync_exact_iff (start : Int → UInt64) (hwf : TableWf s)
    (hkeys : (entries.map Prod.fst).Nodup) (hsum : total = usageSum (entries.map Prod.snd))
    (hcard : ((usageMap s).keys ∪ ((updatesOf entries).map Prod.fst).toFinset).card ≤
      maxProcesses) :
    ((syncEbpfDataToSharedMemory start (readableMaps total entries) s).globalStats = total ∧
      ∀ e ∈ entries,
        (usageMap (syncEbpfDataToSharedMemory start (readableMaps total entries) s)).get
          (pidOfKey e.1) = some e.2) ↔
    (∀ e ∈ entries, 0 < pidOfKey e.1) ∧
      usageSum (entries.map fun e => storedUsage s (pidOfKey e.1)) = total := by
  have hmerged := merged_updatesOf hkeys
  by_cases hpos : ∀ e ∈ entries, 0 < pidOfKey e.1
  · have hpos' : ∀ e ∈ updatesOf entries, 0 < e.1 := by
      intro e he
      obtain ⟨e', he', rfl⟩ := List.mem_map.mp he
      exact hpos e' he'
    have h : Syncable s entries := ⟨hwf, hmerged, fits_of_card hwf hpos' hcard⟩
    rw [globalStats_sync h, ← hsum, add_sub_eq_self_iff]
    constructor
    · rintro ⟨htotal, -⟩
      exact ⟨hpos, htotal⟩
    · rintro ⟨-, htotal⟩
      exact ⟨htotal, fun e he => get_sync h he⟩
  · -- the update of a key that is no pid is refused
    refine iff_of_false ?_ (fun h => hpos h.1)
    rintro ⟨-, hget⟩
    apply hpos
    intro e he
    by_contra hle
    have hsynced : TableWf (syncEbpfDataToSharedMemory start (readableMaps total entries) s) :=
      tableWf_sync hwf
    have hkey : pidOfKey e.1 ≤ 0 := by omega
    have hnone := get_eq_none_of_nonpos hsynced hkey
    rw [hget e he] at hnone
    cases hnone

end Result

/-- One process that the table does not know yet. -/
theorem syncable_fresh : Syncable zeroed [(100, ⟨1, 0, 0⟩)] where
  wf := TableWf.zeroed
  merged := List.nodup_singleton _
  fits := by
    refine ⟨?_, ?_⟩
    · intro e he
      rw [List.mem_singleton.mp he]
      decide
    · exact RoomFor.zeroed (by rw [maxProcesses_eq]; decide)

/-- The table once this process has its entry. -/
def knownProcess : SharedMemoryData := updateTable (fun _ => 7) 100 ⟨1, 0, 0⟩ zeroed

theorem tableWf_knownProcess : TableWf knownProcess := TableWf.zeroed.update _ _ _

theorem storedUsage_knownProcess : storedUsage knownProcess (pidOfKey 100) = ⟨1, 0, 0⟩ := by
  obtain ⟨i, hslot⟩ := syncable_fresh.fits.head
  have hget : (usageMap knownProcess).get (pidOfKey 100) = some ⟨1, 0, 0⟩ := get_update_self hslot
  unfold storedUsage
  rw [hget]
  rfl

theorem keys_knownProcess : (usageMap knownProcess).keys ⊆ {100} := by
  intro pid hpid
  rw [BoundedMap.mem_keys] at hpid
  rw [Finset.mem_singleton]
  by_contra hne
  by_cases hpos : 0 < pid
  · have hget : (usageMap knownProcess).get pid = (usageMap zeroed).get pid :=
      get_update_of_ne hpos hne
    rw [hget, usageMap_zeroed] at hpid
    cases hpid
  · rw [get_eq_none_of_nonpos tableWf_knownProcess (by omega)] at hpid
    cases hpid

/-- A pass is exact if nothing has changed since the one before. -/
theorem sync_exact_iff_at_known :
    let synced := syncEbpfDataToSharedMemory (fun _ => 7)
      (readableMaps ⟨1, 0, 0⟩ [(100, ⟨1, 0, 0⟩)]) knownProcess
    synced.globalStats = ⟨1, 0, 0⟩ ∧
      ∀ e ∈ [((100 : UInt32), (⟨1, 0, 0⟩ : ResourceUsage))],
        (usageMap synced).get (pidOfKey e.1) = some e.2 := by
  have hkeys : ([((100 : UInt32), (⟨1, 0, 0⟩ : ResourceUsage))].map Prod.fst).Nodup := by decide
  refine (sync_exact_iff (fun _ => 7) tableWf_knownProcess hkeys (by decide) ?_).mpr ⟨?_, ?_⟩
  · have hsubset : (usageMap knownProcess).keys ∪
        ((updatesOf [(100, ⟨1, 0, 0⟩)]).map Prod.fst).toFinset ⊆ {100} :=
      Finset.union_subset keys_knownProcess (by decide)
    have hle := Finset.card_le_card hsubset
    rw [Finset.card_singleton] at hle
    have hmax := maxProcesses_eq
    omega
  · intro e he
    rw [List.mem_singleton.mp he]
    decide
  · rw [List.map_cons, List.map_nil, storedUsage_knownProcess]
    decide

/-- **The sync counts a new process twice.**  The maps report one process with
one QP, and one QP in all; afterwards the totals report two. -/
theorem sync_counts_twice :
    usageSum [⟨1, 0, 0⟩] = ⟨1, 0, 0⟩ ∧
      (syncEbpfDataToSharedMemory (fun _ => 7)
        (readableMaps ⟨1, 0, 0⟩ [(100, ⟨1, 0, 0⟩)]) zeroed).globalStats = ⟨2, 0, 0⟩ := by
  refine ⟨by decide, ?_⟩
  rw [globalStats_sync syncable_fresh]
  have hstored : storedUsage zeroed (pidOfKey 100) = .zero := by
    unfold storedUsage
    rw [usageMap_zeroed]
    rfl
  simp only [List.map_cons, List.map_nil, hstored]
  decide

end MtRdma.Ports.EbpfSync
