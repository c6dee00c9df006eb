import MtRdma.Verified.WriteBuffer
import MtRdma.Ports.SharedMemoryMap

/-!
# Updates of the process table as writes of one slot

Whatever `shm_update_process_resources` finds, it ends in one of two ways: it
writes pid, start time and usage of one slot and moves the totals by the
difference of the usages (`writeSlot`), or it refuses.  Writes of different
slots commute, and a write is absorbed by the next one of its slot, the
version number apart.

The table therefore may stand behind a write buffer: it has decided about a
pid once the pid has a slot, or no slot is left.
-/

namespace MtRdma.Ports.SharedMemory

open Verified
open Verified.SlotScan

/-! ## One slot -/

/-- The start time of an entry after an update of its process. -/
def keptStart (start stored : UInt64) : UInt64 :=
  if pidReused start stored then start else stored

theorem keptStart_self (start : UInt64) : keptStart start start = start := by
  unfold keptStart
  split <;> rfl

theorem keptStart_keptStart (start stored : UInt64) :
    keptStart start (keptStart start stored) = keptStart start stored := by
  by_cases h : pidReused start stored
  · have hkept : keptStart start stored = start := if_pos h
    rw [hkept, keptStart_self]
  · have hkept : keptStart start stored = stored := if_neg h
    rw [hkept]
    exact hkept

/-- Write the entry of a slot, with the totals following the usage. -/
def writeSlot (slot : Slot) (pid : Int) (start : UInt64) (usage : ResourceUsage)
    (s : SharedMemoryData) : SharedMemoryData :=
  { s with
    globalStats := s.globalStats.add (usage.sub (s.processStats slot))
    processStats := Function.update s.processStats slot usage
    processPids := Function.update s.processPids slot pid
    processStartTimes := Function.update s.processStartTimes slot start
    version := s.version + 1 }

/-- An entry that is taken over leaves the totals before the new usage enters
them, which is the same as moving them once. -/
theorem storeUsage_refreshSlot (slot : Slot) (usage : ResourceUsage) (start : UInt64)
    (s : SharedMemoryData) :
    storeUsage slot usage (refreshSlot slot start s) =
      writeSlot slot (s.processPids slot) (keptStart start (s.processStartTimes slot)) usage s := by
  unfold refreshSlot keptStart writeSlot
  split
  · simp only [storeUsage, Function.update_self, Function.update_idem, Function.update_eq_self,
      ResourceUsage.add, ResourceUsage.sub, ResourceUsage.zero]
    congr 2 <;> grind
  · simp only [storeUsage, Function.update_eq_self]

theorem storeUsage_claimSlot (slot : Slot) (pid : Int) (usage : ResourceUsage) (start : UInt64)
    (s : SharedMemoryData) :
    storeUsage slot usage (claimSlot slot pid start s) = writeSlot slot pid start usage s := rfl

/-- The slot an update of `pid` writes, if it is not refused. -/
def slotFor (pid : Int) (s : SharedMemoryData) : Option Slot :=
  if pid ≤ 0 then none else (lookup s.processPids pid).or (lookup s.processPids 0)

/-- The start time it writes there. -/
def startFor (pid : Int) (start : UInt64) (slot : Slot) (s : SharedMemoryData) : UInt64 :=
  if s.processPids slot = pid then keptStart start (s.processStartTimes slot) else start

/-- **An update writes one slot or refuses.** -/
theorem shmUpdateProcessResources_eq (pid : Int) (usage : ResourceUsage) (start : UInt64)
    (s : SharedMemoryData) :
    shmUpdateProcessResources pid usage start s =
      match slotFor pid s with
      | none => (-1, s)
      | some slot => (0, writeSlot slot pid (startFor pid start slot s) usage s) := by
  have hout := shmUpdateProcessResources_outcome pid usage start s
  generalize shmUpdateProcessResources pid usage start s = r at hout ⊢
  cases hout with
  | badPid hle => simp [slotFor, hle]
  | @found slot hpos hl =>
      have hpid : s.processPids slot = pid := lookup_some hl
      have hslot : slotFor pid s = some slot := by simp [slotFor, hpos, hl]
      rw [hslot, storeUsage_refreshSlot]
      simp only [startFor, hpid, if_true]
  | @added slot hpos hl hh =>
      have hpid : s.processPids slot ≠ pid := by
        rw [lookup_some hh]
        exact hpos.ne
      have hslot : slotFor pid s = some slot := by simp [slotFor, hpos, hl, hh]
      rw [hslot, storeUsage_claimSlot]
      simp only [startFor, hpid, if_false]
  | full hpos hl hh => simp [slotFor, hl, hh]

/-! ## Two writes -/

/-- The table without the number of its changes. -/
def forgetVersion (s : SharedMemoryData) : SharedMemoryData := { s with version := 0 }

theorem writeSlot_comm {i j : Slot} (hne : i ≠ j) (pid q : Int) (start start' : UInt64)
    (usage usage' : ResourceUsage) (s : SharedMemoryData) :
    writeSlot i pid start usage (writeSlot j q start' usage' s) =
      writeSlot j q start' usage' (writeSlot i pid start usage s) := by
  simp only [writeSlot, Function.update_of_ne hne, Function.update_of_ne hne.symm,
    Function.update_comm hne, ResourceUsage.add, ResourceUsage.sub]
  congr 2 <;> grind

theorem writeSlot_absorb (slot : Slot) (pid : Int) (start start' : UInt64)
    (usage usage' : ResourceUsage) (s : SharedMemoryData) :
    forgetVersion (writeSlot slot pid start' usage' (writeSlot slot pid start usage s)) =
      forgetVersion (writeSlot slot pid start' usage' s) := by
  simp only [forgetVersion, writeSlot, Function.update_self, Function.update_idem,
    ResourceUsage.add, ResourceUsage.sub]
  congr 2 <;> grind

theorem writeSlot_congr {s s' : SharedMemoryData} (h : forgetVersion s = forgetVersion s')
    (slot : Slot) (pid : Int) (start : UInt64) (usage : ResourceUsage) :
    forgetVersion (writeSlot slot pid start usage s) =
      forgetVersion (writeSlot slot pid start usage s') := by
  obtain ⟨global, stats, pids, starts, maxQp, maxMr, maxMemory, lock, version⟩ := s
  obtain ⟨global', stats', pids', starts', maxQp', maxMr', maxMemory', lock', version'⟩ := s'
  simp only [forgetVersion, SharedMemoryData.mk.injEq] at h
  obtain ⟨rfl, rfl, rfl, rfl, rfl, rfl, rfl, rfl, _⟩ := h
  rfl

/-! ## The table behind a buffer -/

/-- An update with the start time that the oracle knows for the pid. -/
def updateTable (start : Int → UInt64) (pid : Int) (usage : ResourceUsage)
    (s : SharedMemoryData) : SharedMemoryData :=
  (shmUpdateProcessResources pid usage (start pid) s).2

/-- An update of the pid will be refused, or the pid has an entry, or it would
find no free slot. -/
def Decided (pid : Int) (s : SharedMemoryData) : Prop :=
  pid ≤ 0 ∨ (lookup s.processPids pid).isSome ∨ lookup s.processPids 0 = none

section Updates

variable {start : Int → UInt64} {k q : Int} {u v : ResourceUsage} {s : SharedMemoryData}
  {i j : Slot}

theorem updateTable_refused (h : slotFor k s = none) : updateTable start k v s = s := by
  unfold updateTable
  rw [shmUpdateProcessResources_eq, h]

theorem updateTable_written (h : slotFor k s = some i) :
    updateTable start k v s = writeSlot i k (startFor k (start k) i s) v s := by
  unfold updateTable
  rw [shmUpdateProcessResources_eq, h]

/-- An update writes the slot of its pid, or a free one if the pid has none. -/
theorem slotFor_cases (h : slotFor k s = some i) :
    0 < k ∧ (lookup s.processPids k = some i ∨
      lookup s.processPids k = none ∧ lookup s.processPids 0 = some i) := by
  unfold slotFor at h
  split at h
  · cases h
  · rename_i hk
    refine ⟨by omega, ?_⟩
    cases hl : lookup s.processPids k with
    | some slot =>
        rw [hl] at h
        exact .inl h
    | none =>
        rw [hl] at h
        exact .inr ⟨rfl, h⟩

/-- The slot an update writes holds its pid or none. -/
theorem processPids_slotFor (h : slotFor k s = some i) :
    s.processPids i = k ∨ s.processPids i = 0 := by
  rcases (slotFor_cases h).2 with hl | ⟨_, hh⟩
  · exact .inl (lookup_some hl)
  · exact .inr (lookup_some hh)

theorem lookup_of_decided (h : Decided k s) (hslot : slotFor k s = some i) :
    lookup s.processPids k = some i := by
  obtain ⟨hpos, hl | ⟨hl, hh⟩⟩ := slotFor_cases hslot
  · exact hl
  · rcases h with hle | hsome | hfull
    · omega
    · rw [hl] at hsome
      cases hsome
    · rw [hfull] at hh
      cases hh

/-- In a table without a free slot an update leaves the pids alone. -/
theorem processPids_update_of_full (hfull : lookup s.processPids 0 = none) :
    (updateTable start q u s).processPids = s.processPids := by
  cases hslot : slotFor q s with
  | none => rw [updateTable_refused hslot]
  | some j =>
      have hpid : s.processPids j = q :=
        lookup_some (lookup_of_decided (.inr (.inr hfull)) hslot)
      rw [updateTable_written hslot]
      show Function.update s.processPids j q = s.processPids
      rw [← hpid, Function.update_eq_self]

/-- Updates of other pids leave the slot of a pid where it is. -/
theorem lookup_update_of_ne (hpos : 0 < k) (hne : k ≠ q) :
    lookup (updateTable start q u s).processPids k = lookup s.processPids k := by
  cases hslot : slotFor q s with
  | none => rw [updateTable_refused hslot]
  | some j =>
      rw [updateTable_written hslot]
      have hold : s.processPids j ≠ k := by
        rcases processPids_slotFor hslot with hpid | hpid
        · rw [hpid]
          exact hne.symm
        · rw [hpid]
          exact hpos.ne
      exact lookup_update_ne hold hne.symm

theorem Decided.self : Decided k (updateTable start k v s) := by
  cases hslot : slotFor k s with
  | none =>
      rw [updateTable_refused hslot]
      unfold slotFor at hslot
      split at hslot
      · exact .inl ‹_›
      · exact .inr (.inr (Option.or_eq_none_iff.mp hslot).2)
  | some i =>
      rw [updateTable_written hslot]
      refine .inr (.inl ((lookup_isSome_iff _ _).mpr ⟨i, ?_⟩))
      exact Function.update_self i k s.processPids

theorem Decided.update (h : Decided k s) : Decided k (updateTable start q u s) := by
  by_cases hne : k = q
  · subst hne
    exact .self
  · rcases h with hle | hsome | hfull
    · exact .inl hle
    · by_cases hpos : 0 < k
      · rw [← lookup_update_of_ne hpos hne] at hsome
        exact .inr (.inl hsome)
      · exact .inl (by omega)
    · refine .inr (.inr ?_)
      rw [processPids_update_of_full hfull]
      exact hfull

/-- What an update of another pid leaves of the decision. -/
theorem slotFor_update_of_ne (h : Decided k s) (hne : k ≠ q) :
    slotFor k (updateTable start q u s) = slotFor k s := by
  unfold slotFor
  by_cases hle : k ≤ 0
  · rw [if_pos hle, if_pos hle]
  · rw [if_neg hle, if_neg hle, lookup_update_of_ne (by omega) hne]
    rcases h with hle' | hsome | hfull
    · exact absurd hle' hle
    · obtain ⟨slot, hl⟩ := Option.isSome_iff_exists.mp hsome
      rw [hl]
      rfl
    · rw [processPids_update_of_full hfull]

/-- The update of a pid that has its slot does not move the slots of others. -/
theorem slotFor_update_of_found (hl : lookup s.processPids k = some i)
    (hslot : slotFor k s = some i) : slotFor q (updateTable start k v s) = slotFor q s := by
  have hpids : (updateTable start k v s).processPids = s.processPids := by
    rw [updateTable_written hslot]
    show Function.update s.processPids i k = s.processPids
    rw [← lookup_some hl, Function.update_eq_self]
  unfold slotFor
  rw [hpids]

theorem startFor_writeSlot_ne (hne : i ≠ j) (pid : Int) (st st' : UInt64) :
    startFor k st i (writeSlot j pid st' u s) = startFor k st i s := by
  simp only [startFor, writeSlot, Function.update_of_ne hne]

/-- Updates of two pids commute once one of them is decided. -/
theorem updateTable_swap (hne : k ≠ q) (h : Decided k s) :
    updateTable start k v (updateTable start q u s) =
      updateTable start q u (updateTable start k v s) := by
  cases hk : slotFor k s with
  | none => rw [updateTable_refused (slotFor_update_of_ne h hne ▸ hk), updateTable_refused hk]
  | some i =>
      have hl := lookup_of_decided h hk
      have hk' : slotFor k (updateTable start q u s) = some i := by
        rw [slotFor_update_of_ne h hne, hk]
      have hq' : slotFor q (updateTable start k v s) = slotFor q s :=
        slotFor_update_of_found hl hk
      cases hq : slotFor q s with
      | none =>
          rw [hq] at hq'
          rw [updateTable_refused hq, updateTable_refused hq']
      | some j =>
          rw [hq] at hq'
          have hij : i ≠ j := by
            rintro rfl
            have hi : s.processPids i = k := lookup_some hl
            have hpos := (slotFor_cases hk).1
            rcases processPids_slotFor hq with hj | hj
            · exact hne (hi.symm.trans hj)
            · omega
          rw [updateTable_written hk', updateTable_written hq']
          rw [updateTable_written hk, updateTable_written hq]
          rw [startFor_writeSlot_ne hij, startFor_writeSlot_ne hij.symm]
          exact writeSlot_comm hij _ _ _ _ _ _ _

/-- After an update its pid has the slot that was written. -/
theorem lookup_update_self (h : slotFor k s = some i) :
    lookup (updateTable start k v s).processPids k = some i := by
  rw [updateTable_written h]
  show lookup (Function.update s.processPids i k) k = some i
  rcases (slotFor_cases h).2 with hl | ⟨hl, _⟩
  · rw [← lookup_some hl, Function.update_eq_self, lookup_some hl]
    exact hl
  · exact lookup_set_hole hl i

theorem slotFor_update_self (h : slotFor k s = some i) :
    slotFor k (updateTable start k v s) = some i := by
  have hpos := (slotFor_cases h).1
  unfold slotFor
  rw [if_neg (by omega), lookup_update_self h]
  rfl

/-- A second update of a pid leaves no trace of the first. -/
theorem updateTable_absorb :
    forgetVersion (updateTable start k v (updateTable start k u s)) =
      forgetVersion (updateTable start k v s) := by
  cases hk : slotFor k s with
  | none => rw [updateTable_refused hk]
  | some i =>
      have hslot : slotFor k (updateTable start k u s) = some i := slotFor_update_self hk
      rw [updateTable_written hk] at hslot
      have hstart : startFor k (start k) i (writeSlot i k (startFor k (start k) i s) u s) =
          startFor k (start k) i s := by
        unfold startFor
        simp only [writeSlot, Function.update_self, if_true]
        split
        · exact keptStart_keptStart _ _
        · exact keptStart_self _
      rw [updateTable_written hk, updateTable_written hk, updateTable_written hslot, hstart]
      exact writeSlot_absorb _ _ _ _ _ _ _

theorem updateTable_congr {s' : SharedMemoryData} (h : forgetVersion s = forgetVersion s') :
    forgetVersion (updateTable start k v s) = forgetVersion (updateTable start k v s') := by
  have hpids : (forgetVersion s).processPids = (forgetVersion s').processPids := by rw [h]
  have hstarts : (forgetVersion s).processStartTimes = (forgetVersion s').processStartTimes := by
    rw [h]
  change s.processPids = s'.processPids at hpids
  change s.processStartTimes = s'.processStartTimes at hstarts
  have hslots : slotFor k s' = slotFor k s := by
    unfold slotFor
    rw [hpids]
  cases hk : slotFor k s with
  | none =>
      rw [updateTable_refused hk, updateTable_refused (hslots.trans hk)]
      exact h
  | some i =>
      rw [updateTable_written hk, updateTable_written (hslots.trans hk)]
      unfold startFor
      rw [hpids, hstarts]
      exact writeSlot_congr h _ _ _ _

/-- **The process table may stand behind a write buffer.** -/
theorem updateTable_coalesces (start : Int → UInt64) :
    WriteBuffer.Coalesces (updateTable start) forgetVersion Decided where
  congr := updateTable_congr
  settled_self := .self
  settled_keep := Decided.update
  absorb := updateTable_absorb
  swap hne h := congrArg forgetVersion (updateTable_swap hne h)

/-! ## Updates that are not refused -/

theorem get_update_self (h : slotFor k s = some i) :
    (usageMap (updateTable start k v s)).get k = some v := by
  have hpos := (slotFor_cases h).1
  unfold usageMap
  rw [BoundedMap.get_ofSlots hpos.ne', lookup_update_self h, updateTable_written h]
  show some (Function.update s.processStats i v i) = some v
  rw [Function.update_self]

theorem get_update_of_ne (hpos : 0 < k) (hne : k ≠ q) :
    (usageMap (updateTable start q u s)).get k = (usageMap s).get k := by
  unfold usageMap
  rw [BoundedMap.get_ofSlots hpos.ne', BoundedMap.get_ofSlots hpos.ne',
    lookup_update_of_ne hpos hne]
  cases hl : lookup s.processPids k with
  | none => rfl
  | some i =>
      cases hslot : slotFor q s with
      | none => rw [updateTable_refused hslot]
      | some j =>
          have hij : i ≠ j := by
            rintro rfl
            have hi : s.processPids i = k := lookup_some hl
            rcases processPids_slotFor hslot with hj | hj
            · exact hne (hi.symm.trans hj)
            · omega
          rw [updateTable_written hslot]
          show some (Function.update s.processStats j u i) = some (s.processStats i)
          rw [Function.update_of_ne hij]

/-- The usage recorded for a pid, zeros if it has no entry. -/
def storedUsage (s : SharedMemoryData) (pid : Int) : ResourceUsage :=
  ((usageMap s).get pid).getD .zero

/-- The totals move by what the entry of the pid moves by. -/
theorem globalStats_update (hwf : TableWf s) (h : slotFor k s = some i) :
    (updateTable start k v s).globalStats = s.globalStats.add (v.sub (storedUsage s k)) := by
  obtain ⟨hpos, hcases⟩ := slotFor_cases h
  have hold : s.processStats i = storedUsage s k := by
    unfold storedUsage usageMap
    rw [BoundedMap.get_ofSlots hpos.ne']
    rcases hcases with hl | ⟨hl, hhole⟩
    · rw [hl]
      rfl
    · rw [hl]
      exact hwf.hole_stats i (lookup_some hhole)
  rw [updateTable_written h, ← hold]
  rfl

/-- An update takes up a slot if its pid had none. -/
theorem card_used_update (h : slotFor k s = some i) :
    (used 0 (updateTable start k v s).processPids).card =
      (used 0 s.processPids).card + if (lookup s.processPids k).isNone then 1 else 0 := by
  rw [updateTable_written h]
  show (used 0 (Function.update s.processPids i k)).card = _
  obtain ⟨hpos, hl | ⟨hl, hhole⟩⟩ := slotFor_cases h
  · rw [hl, ← lookup_some hl, Function.update_eq_self]
    rfl
  · rw [hl, card_used_set_hole (lookup_some hhole) hpos.ne']
    rfl

/-- Those of the pids that have no entry. -/
def newcomers (pids : Finset Int) (s : SharedMemoryData) : Finset Int :=
  pids.filter fun p => (lookup s.processPids p).isNone

/-- The table has a place for each of the pids. -/
def RoomFor (pids : Finset Int) (s : SharedMemoryData) : Prop :=
  (used 0 s.processPids).card + (newcomers pids s).card ≤ maxProcesses

variable {pids pids' : Finset Int} {e : Int × ResourceUsage} {updates : List (Int × ResourceUsage)}

theorem RoomFor.mono (h : RoomFor pids s) (hsub : pids' ⊆ pids) : RoomFor pids' s := by
  have hle : (newcomers pids' s).card ≤ (newcomers pids s).card :=
    Finset.card_le_card (Finset.filter_subset_filter _ hsub)
  unfold RoomFor at h ⊢
  omega

theorem RoomFor.zeroed (h : pids.card ≤ maxProcesses) : RoomFor pids zeroed := by
  have hnone : used 0 SharedMemory.zeroed.processPids = ∅ := used_const 0
  unfold RoomFor
  rw [hnone, Finset.card_empty, Nat.zero_add]
  exact (Finset.card_filter_le pids _).trans h

theorem RoomFor.slotFor (h : RoomFor pids s) (hmem : k ∈ pids) (hpos : 0 < k) :
    ∃ i, slotFor k s = some i := by
  unfold SharedMemory.slotFor
  rw [if_neg (by omega)]
  cases hl : lookup s.processPids k with
  | some i => exact ⟨i, rfl⟩
  | none =>
      have hmissing : 0 < (newcomers pids s).card :=
        Finset.card_pos.mpr ⟨k, Finset.mem_filter.mpr ⟨hmem, by rw [hl]; rfl⟩⟩
      have hroom : _ + _ ≤ _ := h
      exact Option.isSome_iff_exists.mp ((exists_hole_iff 0 s.processPids).mpr (by omega))

/-- An update of one of the pids leaves room for the others. -/
theorem RoomFor.update (h : RoomFor pids s) (hpids : ∀ p ∈ pids, 0 < p)
    (hmem : 0 < k → k ∈ pids) : RoomFor pids (updateTable start k v s) := by
  cases hslot : SharedMemory.slotFor k s with
  | none =>
      rw [updateTable_refused hslot]
      exact h
  | some i =>
      have hpos := (slotFor_cases hslot).1
      have hfound : lookup (updateTable start k v s).processPids k = some i :=
        lookup_update_self hslot
      have hothers : ∀ p ∈ pids, p ≠ k →
          lookup (updateTable start k v s).processPids p = lookup s.processPids p :=
        fun p hp hne => lookup_update_of_ne (hpids p hp) hne
      unfold RoomFor at h ⊢
      rw [card_used_update hslot]
      by_cases hold : (lookup s.processPids k).isNone
      · rw [if_pos hold]
        have herase : newcomers pids (updateTable start k v s) = (newcomers pids s).erase k := by
          ext p
          by_cases hp : p = k
          · simp [newcomers, hp, hfound]
          · by_cases hin : p ∈ pids
            · simp [newcomers, hp, hin, hothers p hin hp]
            · simp [newcomers, hin]
        have hk : k ∈ newcomers pids s := Finset.mem_filter.mpr ⟨hmem hpos, hold⟩
        have hcard := Finset.card_erase_add_one hk
        rw [herase]
        omega
      · rw [if_neg hold]
        have hsame : newcomers pids (updateTable start k v s) = newcomers pids s := by
          apply Finset.filter_congr
          intro p hp
          by_cases hpk : p = k
          · simpa [hpk, hfound] using hold
          · rw [hothers p hp hpk]
        rw [hsame]
        exact h

theorem RoomFor.drain (h : RoomFor pids s) (hpids : ∀ p ∈ pids, 0 < p)
    (hmem : ∀ k ∈ updates.map Prod.fst, 0 < k → k ∈ pids) :
    RoomFor pids (WriteBuffer.drain (updateTable start) updates s) :=
  WriteBuffer.drain_invariant
    (fun e he _ ht => ht.update hpids (hmem e.1 (List.mem_map_of_mem he))) h

theorem get_drain_of_not_mem (hpos : 0 < k) (hk : k ∉ updates.map Prod.fst) :
    (usageMap (WriteBuffer.drain (updateTable start) updates s)).get k = (usageMap s).get k := by
  refine WriteBuffer.drain_invariant (P := fun t => (usageMap t).get k = (usageMap s).get k) ?_ rfl
  intro e he t ht
  have hne : k ≠ e.1 := by
    rintro rfl
    exact hk (List.mem_map_of_mem he)
  rw [get_update_of_ne hpos hne]
  exact ht

/-- **Updates that there is room for are all written**, those of pids that are
none apart. -/
theorem get_drain_of_roomFor (hmerged : WriteBuffer.Merged updates) (h : RoomFor pids s)
    (hpids : ∀ p ∈ pids, 0 < p) (hmem : ∀ k ∈ updates.map Prod.fst, 0 < k → k ∈ pids)
    (hpos : 0 < k) (hk : (k, v) ∈ updates) :
    (usageMap (WriteBuffer.drain (updateTable start) updates s)).get k = some v := by
  induction updates generalizing s with
  | nil => cases hk
  | cons e rest ih =>
      obtain ⟨hnot, hrest⟩ := List.nodup_cons.mp hmerged
      have hhead : 0 < e.1 → e.1 ∈ pids := hmem e.1 (by simp)
      rcases List.mem_cons.mp hk with rfl | hk
      · obtain ⟨i, hslot⟩ := h.slotFor (hhead hpos) hpos
        show (usageMap (WriteBuffer.drain _ rest (updateTable start k v s))).get k = some v
        rw [get_drain_of_not_mem hpos hnot]
        exact get_update_self hslot
      · exact ih hrest (h.update hpids hhead) (fun q hq => hmem q (List.mem_cons_of_mem _ hq)) hk

/-- The table has a place for every one of the updates. -/
structure Fits (updates : List (Int × ResourceUsage)) (s : SharedMemoryData) : Prop where
  pid_pos : ∀ e ∈ updates, 0 < e.1
  room : RoomFor (updates.map Prod.fst).toFinset s

theorem Fits.pids_pos (h : Fits updates s) : ∀ p ∈ (updates.map Prod.fst).toFinset, 0 < p := by
  intro p hp
  obtain ⟨e, he, rfl⟩ := List.mem_map.mp (List.mem_toFinset.mp hp)
  exact h.pid_pos e he

theorem Fits.head (h : Fits (e :: updates) s) : ∃ i, slotFor e.1 s = some i :=
  h.room.slotFor (by simp) (h.pid_pos e List.mem_cons_self)

/-- The first write leaves room for the others. -/
theorem Fits.tail (h : Fits (e :: updates) s) : Fits updates (updateTable start e.1 e.2 s) where
  pid_pos e' he' := h.pid_pos e' (List.mem_cons_of_mem e he')
  room := by
    refine (h.room.update h.pids_pos fun _ => by simp).mono ?_
    rw [List.map_cons, List.toFinset_cons]
    exact Finset.subset_insert _ _

/-- **Updates that fit are all written.** -/
theorem get_drain_of_mem (hmerged : WriteBuffer.Merged updates) (h : Fits updates s)
    (hmem : (k, v) ∈ updates) :
    (usageMap (WriteBuffer.drain (updateTable start) updates s)).get k = some v :=
  get_drain_of_roomFor hmerged h.room h.pids_pos (fun _ hk _ => List.mem_toFinset.mpr hk)
    (h.pid_pos (k, v) hmem) hmem

end Updates

end MtRdma.Ports.SharedMemory
