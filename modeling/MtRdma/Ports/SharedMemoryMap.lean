import MtRdma.Verified.BoundedMap
import MtRdma.Verified.Runs
import MtRdma.Ports.SharedMemory

/-!
# The process table as a bounded finite map

`TableWf` is the invariant of the array: no pid occupies two slots and a hole
carries neither usage nor a start time.  `usageMap` reads the array as a
`BoundedMap`, and every update and clear is then one of four map steps
(`MapStep`), whatever holes earlier clears left behind and whatever start
times were read.
-/

namespace MtRdma.Ports.SharedMemory

open Verified
open Verified.SlotScan
open Verified.Runs

variable {s : SharedMemoryData} {pid q : Int} {slot : Slot}

/-! ## The array invariant -/

/-- Well-formed process tables. -/
structure TableWf (s : SharedMemoryData) : Prop where
  distinct : Distinct 0 s.processPids
  pid_nonneg : ∀ i, 0 ≤ s.processPids i
  hole_stats : ∀ i, s.processPids i = 0 → s.processStats i = .zero
  hole_start : ∀ i, s.processPids i = 0 → s.processStartTimes i = 0

theorem TableWf.zeroed : TableWf zeroed where
  distinct := Distinct.const 0
  pid_nonneg := fun _ => Int.le_refl 0
  hole_stats := fun _ _ => rfl
  hole_start := fun _ _ => rfl

theorem TableWf.refreshSlot (h : TableWf s) (start : UInt64) (hs : s.processPids slot ≠ 0) :
    TableWf (refreshSlot slot start s) := by
  unfold SharedMemory.refreshSlot
  split
  · refine
      { distinct := h.distinct
        pid_nonneg := h.pid_nonneg
        hole_stats := ?_
        hole_start := ?_ }
    · intro i hi
      have his : i ≠ slot := fun heq => hs (heq ▸ hi)
      simpa [his] using h.hole_stats i hi
    · intro i hi
      have his : i ≠ slot := fun heq => hs (heq ▸ hi)
      simpa [his] using h.hole_start i hi
  · exact h

theorem TableWf.claimSlot (h : TableWf s) (start : UInt64) (hpid : 0 < pid)
    (habs : lookup s.processPids pid = none) (hs : s.processPids slot = 0) :
    TableWf (claimSlot slot pid start s) := by
  refine
    { distinct := h.distinct.set_hole habs slot
      pid_nonneg := ?_
      hole_stats := ?_
      hole_start := ?_ }
  · intro i
    by_cases his : i = slot
    · simp [his, hpid.le]
    · simpa [his] using h.pid_nonneg i
  · intro i hi
    by_cases his : i = slot
    · subst his
      exact h.hole_stats i hs
    · exact h.hole_stats i (by simpa [his] using hi)
  · intro i hi
    by_cases his : i = slot
    · -- the claimed slot is no longer a hole
      subst his
      simp [hpid.ne'] at hi
    · simpa [SharedMemory.claimSlot, his] using h.hole_start i (by simpa [his] using hi)

theorem TableWf.storeUsage (h : TableWf s) (usage : ResourceUsage) (hs : s.processPids slot ≠ 0) :
    TableWf (storeUsage slot usage s) := by
  refine
    { distinct := h.distinct
      pid_nonneg := h.pid_nonneg
      hole_stats := ?_
      hole_start := h.hole_start }
  intro i hi
  have his : i ≠ slot := fun heq => hs (heq ▸ hi)
  simpa [his] using h.hole_stats i hi

theorem TableWf.clearSlot (h : TableWf s) (slot : Slot) :
    TableWf (clearSlot slot s) := by
  refine
    { distinct := h.distinct.clear_slot slot
      pid_nonneg := ?_
      hole_stats := ?_
      hole_start := ?_ }
  · intro i
    by_cases his : i = slot
    · simp [his]
    · simpa [his] using h.pid_nonneg i
  · intro i hi
    by_cases his : i = slot
    · simp [his]
    · simpa [his] using h.hole_stats i (by simpa [his] using hi)
  · intro i hi
    by_cases his : i = slot
    · simp [SharedMemory.clearSlot, his]
    · simpa [SharedMemory.clearSlot, his] using h.hole_start i (by simpa [his] using hi)

/-- An update keeps the table well formed, on each of its outcomes. -/
theorem TableWf.update (h : TableWf s) (pid : Int) (usage : ResourceUsage) (start : UInt64) :
    TableWf (shmUpdateProcessResources pid usage start s).2 := by
  have hout := shmUpdateProcessResources_outcome pid usage start s
  generalize shmUpdateProcessResources pid usage start s = r at hout
  cases hout with
  | badPid _ => exact h
  | @found slot hpos hl =>
      have hs : s.processPids slot ≠ 0 := by rw [lookup_some hl]; exact hpos.ne'
      exact (h.refreshSlot start hs).storeUsage usage (by simpa using hs)
  | @added slot hpos hl hh =>
      exact (h.claimSlot start hpos hl (lookup_some hh)).storeUsage usage
        (by simp [hpos.ne'])
  | full _ _ _ => exact h

theorem TableWf.clearEntry (h : TableWf s) (slot : Int) :
    TableWf (shmClearProcessEntry slot s).2 := by
  rcases shmClearProcessEntry_cases slot s with hc | ⟨i, _, _, hc⟩
  · rw [hc]
    exact h
  · rw [hc]
    exact h.clearSlot i

theorem TableWf.shmInit (h : TableWf s) : TableWf (shmInit s) := by
  unfold SharedMemory.shmInit
  split
  · exact ⟨Distinct.const 0, fun _ => Int.le_refl 0, fun _ _ => rfl, fun _ _ => rfl⟩
  · exact h

/-! ## The map held by the table -/

/-- The usage stored for each pid. -/
def usageMap (s : SharedMemoryData) : BoundedMap Int ResourceUsage maxProcesses :=
  .ofSlots 0 s.processPids s.processStats

/-- What `shm_get_process_resources` answers is the value of the map, with
zeros for an absent pid. -/
theorem shmGetProcessResources_eq (s : SharedMemoryData) (h : 0 < pid) :
    shmGetProcessResources pid s = some (((usageMap s).get pid).getD .zero) := by
  unfold shmGetProcessResources usageMap
  rw [if_neg (by omega), BoundedMap.get_ofSlots h.ne']
  cases lookup s.processPids pid with
  | none | some => rfl

theorem usageMap_storeUsage (s : SharedMemoryData) (usage : ResourceUsage) (hpos : 0 < pid)
    (hl : lookup s.processPids pid = some slot) (hroom : (usageMap s).Room pid) :
    usageMap (storeUsage slot usage s) = (usageMap s).put pid usage hroom :=
  BoundedMap.ofSlots_overwrite usage hl hroom hpos.ne'

/-- A PID-reuse rewrite followed by the store is the plain store as far as the
map is concerned: the zeroed record is overwritten at once. -/
theorem usageMap_storeUsage_refreshSlot (s : SharedMemoryData) (slot : Slot)
    (usage : ResourceUsage) (start : UInt64) :
    usageMap (storeUsage slot usage (refreshSlot slot start s)) =
      usageMap (storeUsage slot usage s) := by
  have hstats : (storeUsage slot usage (refreshSlot slot start s)).processStats =
      (storeUsage slot usage s).processStats := by
    funext i
    by_cases his : i = slot
    · simp [his]
    · simp [his, refreshSlot_processStats_ne]
  unfold usageMap
  rw [hstats]
  simp

theorem usageMap_clearSlot (h : TableWf s) (hs : s.processPids slot ≠ 0) :
    usageMap (clearSlot slot s) = (usageMap s).erase (s.processPids slot) :=
  BoundedMap.ofSlots_clear_slot h.distinct ResourceUsage.zero hs

/-- The pid in the slot of a clearing call, if the slot exists and is occupied. -/
def occupant (slot : Int) (s : SharedMemoryData) : Option Int :=
  ((slotOf? slot).map s.processPids).filter (· ≠ 0)

theorem clear_of_vacant {slot : Int} (h : occupant slot s = none) :
    shmClearProcessEntry slot s = (none, s) := by
  rcases shmClearProcessEntry_cases slot s with hc | ⟨i, hi, hp, hc⟩
  · exact hc
  · simp [occupant, hi, hp] at h

/-- Clearing an occupied slot answers the usage of its pid and removes the pid. -/
theorem clear_of_occupant (h : TableWf s) {slot : Int} (hpid : occupant slot s = some pid) :
    pid ∈ (usageMap s).keys ∧ (shmClearProcessEntry slot s).1 = (usageMap s).get pid ∧
      usageMap (shmClearProcessEntry slot s).2 = (usageMap s).erase pid := by
  obtain ⟨hsome, hne⟩ := Option.filter_eq_some_iff.mp hpid
  obtain ⟨i, hi, rfl⟩ := Option.map_eq_some_iff.mp hsome
  have hp : s.processPids i ≠ 0 := of_decide_eq_true hne
  have hget : (usageMap s).get (s.processPids i) = some (s.processStats i) := by
    rw [usageMap, BoundedMap.get_ofSlots hp, h.distinct.lookup_eq hp]
    rfl
  have hclear : shmClearProcessEntry slot s = (some (s.processStats i), clearSlot i s) := by
    simp [shmClearProcessEntry, hi, hp]
  refine ⟨by rw [BoundedMap.mem_keys, hget]; rfl, ?_, ?_⟩
  · rw [hclear, hget]
  · rw [hclear, usageMap_clearSlot h hp]

theorem room_usageMap_iff (h : TableWf s) (hpos : 0 < pid) :
    (usageMap s).Room pid ↔
      (lookup s.processPids pid).isSome ∨ (lookup s.processPids 0).isSome :=
  BoundedMap.room_ofSlots_iff h.distinct hpos.ne'

/-- An update with a positive pid and room for it stores the usage. -/
theorem update_of_room (h : TableWf s) (usage : ResourceUsage) (start : UInt64) (hpos : 0 < pid)
    (hroom : (usageMap s).Room pid) :
    (shmUpdateProcessResources pid usage start s).1 = 0 ∧
      usageMap (shmUpdateProcessResources pid usage start s).2 =
        (usageMap s).put pid usage hroom := by
  have hout := shmUpdateProcessResources_outcome pid usage start s
  generalize shmUpdateProcessResources pid usage start s = r at hout ⊢
  cases hout with
  | badPid hle => omega
  | found _ hl =>
      refine ⟨rfl, ?_⟩
      rw [usageMap_storeUsage_refreshSlot]
      exact usageMap_storeUsage s usage hpos hl hroom
  | added _ hl hh =>
      exact ⟨rfl, BoundedMap.ofSlots_set_hole usage hl (lookup_some hh) hroom hpos.ne'⟩
  | full _ hl hh =>
      rw [room_usageMap_iff h hpos, hl, hh] at hroom
      simp at hroom

/-- An update is refused, and changes nothing at all, when the pid is not
positive or the table is full of other pids. -/
theorem update_of_not_room (h : TableWf s) (usage : ResourceUsage) (start : UInt64)
    (hno : ¬(0 < pid ∧ (usageMap s).Room pid)) :
    shmUpdateProcessResources pid usage start s = (-1, s) := by
  have hout := shmUpdateProcessResources_outcome pid usage start s
  generalize shmUpdateProcessResources pid usage start s = r at hout ⊢
  cases hout with
  | badPid _ => rfl
  | found hpos hl =>
      exact absurd ⟨hpos, (room_usageMap_iff h hpos).mpr (.inl (by simp [hl]))⟩ hno
  | added hpos _ hh =>
      exact absurd ⟨hpos, (room_usageMap_iff h hpos).mpr (.inr (by simp [hh]))⟩ hno
  | full _ _ _ => rfl

/-- Afterwards the entry of the pid is the usage. -/
theorem usageMap_update_self (h : TableWf s) (usage : ResourceUsage) (start : UInt64)
    (hpos : 0 < pid) (hroom : (usageMap s).Room pid) :
    (usageMap (shmUpdateProcessResources pid usage start s).2).get pid = some usage := by
  rw [(update_of_room h usage start hpos hroom).2, BoundedMap.get_put_self]

/-- The entries of all other pids are as before. -/
theorem usageMap_update_ne (h : TableWf s) (usage : ResourceUsage) (start : UInt64)
    (hne : q ≠ pid) :
    (usageMap (shmUpdateProcessResources pid usage start s).2).get q = (usageMap s).get q := by
  by_cases hroom : 0 < pid ∧ (usageMap s).Room pid
  · rw [(update_of_room h usage start hroom.1 hroom.2).2, BoundedMap.get_put_ne _ _ _ hne]
  · rw [update_of_not_room h usage start hroom]

/-- The totals move by what the entry of the pid moves by. -/
theorem globalQp_update (h : TableWf s) (usage : ResourceUsage) (start : UInt64) (hpos : 0 < pid)
    (hroom : (usageMap s).Room pid) :
    (shmUpdateProcessResources pid usage start s).2.globalStats.qpCount =
      s.globalStats.qpCount +
        (usage.qpCount - (((usageMap s).get pid).getD .zero).qpCount) := by
  have hget : (usageMap s).get pid = (lookup s.processPids pid).map s.processStats :=
    BoundedMap.get_ofSlots hpos.ne'
  have hout := shmUpdateProcessResources_outcome pid usage start s
  generalize shmUpdateProcessResources pid usage start s = r at hout ⊢
  cases hout with
  | badPid hle => omega
  | found _ hl =>
      rw [hget, hl]
      unfold storeUsage refreshSlot
      split
      · -- the old usage leaves the totals before the new one enters them
        simp only [ResourceUsage.add, ResourceUsage.sub, Function.update_self,
          ResourceUsage.zero, Option.map_some, Option.getD_some]
        grind
      · rfl
  | added _ hl hh =>
      rw [hget, hl]
      unfold storeUsage claimSlot
      simp only [ResourceUsage.add, ResourceUsage.sub, h.hole_stats _ (lookup_some hh)]
      rfl
  | full _ hl hh =>
      rw [room_usageMap_iff h hpos, hl, hh] at hroom
      simp at hroom

/-- Updating one pid is invisible to the reader of another. -/
theorem get_after_update_ne (h : TableWf s) (usage : ResourceUsage) (start : UInt64) (hq : 0 < q)
    (hne : q ≠ pid) :
    shmGetProcessResources q (shmUpdateProcessResources pid usage start s).2 =
      shmGetProcessResources q s := by
  rw [shmGetProcessResources_eq _ hq, shmGetProcessResources_eq _ hq,
    usageMap_update_ne h usage start hne]

/-- Clearing a slot is invisible to the reader of a pid that is not in it. -/
theorem get_after_clearSlot_ne (h : TableWf s) (hq : 0 < q) (hs : s.processPids slot ≠ 0)
    (hne : s.processPids slot ≠ q) :
    shmGetProcessResources q (clearSlot slot s) = shmGetProcessResources q s := by
  rw [shmGetProcessResources_eq _ hq, shmGetProcessResources_eq _ hq,
    usageMap_clearSlot h hs, BoundedMap.get_erase_ne _ hne.symm]

/-- A clearing call leaves the entry of a pid alone that is not in its slot. -/
theorem usageMap_clear_ne (h : TableWf s) {slot : Int}
    (hne : ∀ i, slotOf? slot = some i → s.processPids i ≠ q) :
    (usageMap (shmClearProcessEntry slot s).2).get q = (usageMap s).get q := by
  rcases shmClearProcessEntry_cases slot s with hc | ⟨i, hi, hp, hc⟩
  · rw [hc]
  · rw [hc, usageMap_clearSlot h hp, BoundedMap.get_erase_ne _ (hne i hi).symm]

theorem get_after_clear_ne (h : TableWf s) {slot : Int} (hq : 0 < q)
    (hne : ∀ i, slotOf? slot = some i → s.processPids i ≠ q) :
    shmGetProcessResources q (shmClearProcessEntry slot s).2 =
      shmGetProcessResources q s := by
  rw [shmGetProcessResources_eq _ hq, shmGetProcessResources_eq _ hq, usageMap_clear_ne h hne]

/-! ## Refinement of the map machine -/

/-- Calls on the process table; `start` is the answer of the start-time
oracle to this call. -/
inductive TableOp where
  | update (pid : Int) (usage : ResourceUsage) (start : UInt64)
  | clear (slot : Int)

/-- A call together with what it returned; a clearing call with the pid that it
finds in its slot. -/
inductive TableEvent where
  | updated (pid : Int) (usage : ResourceUsage) (rc : Int)
  | cleared (pid : Option Int) (out : Option ResourceUsage)

/-- Execute one call, appending what it returned to the trace. -/
def tableStep (t : List TableEvent × SharedMemoryData) :
    TableOp → List TableEvent × SharedMemoryData
  | .update pid usage start =>
      let r := shmUpdateProcessResources pid usage start t.2
      (t.1 ++ [.updated pid usage r.1], r.2)
  | .clear slot =>
      let r := shmClearProcessEntry slot t.2
      (t.1 ++ [.cleared (occupant slot t.2) r.1], r.2)

/-- Trace and final segment of a sequence of calls on a zeroed segment. -/
def tableRun (ops : List TableOp) : List TableEvent × SharedMemoryData :=
  ops.foldl tableStep ([], zeroed)

/-- The abstract machine: a map from positive pids with at most
`maxProcesses` keys. -/
inductive MapStep : BoundedMap Int ResourceUsage maxProcesses → TableEvent →
    BoundedMap Int ResourceUsage maxProcesses → Prop
  | put {m pid usage} (hpos : 0 < pid) (hroom : m.Room pid) :
      MapStep m (.updated pid usage 0) (m.put pid usage hroom)
  | refuse {m pid usage} (hno : ¬(0 < pid ∧ m.Room pid)) :
      MapStep m (.updated pid usage (-1)) m
  | drop {m pid} (hmem : pid ∈ m.keys) :
      MapStep m (.cleared (some pid) (m.get pid)) (m.erase pid)
  | keep {m} : MapStep m (.cleared none none) m

/-- One call on a well-formed table is one step of the abstract machine. -/
theorem tableStep_simulates {t : List TableEvent × SharedMemoryData}
    (hwf : TableWf t.2) (hrun : Run MapStep .empty t.1 (usageMap t.2)) (op : TableOp) :
    Run MapStep .empty (tableStep t op).1 (usageMap (tableStep t op).2) := by
  cases op with
  | update pid usage start =>
      refine .snoc hrun ?_
      by_cases hroom : 0 < pid ∧ (usageMap t.2).Room pid
      · obtain ⟨hrc, hmap⟩ := update_of_room hwf usage start hroom.1 hroom.2
        simp only [tableStep]
        rw [hrc, hmap]
        exact .put hroom.1 hroom.2
      · simp only [tableStep]
        rw [update_of_not_room hwf usage start hroom]
        exact .refuse hroom
  | clear slot =>
      refine .snoc hrun ?_
      simp only [tableStep]
      cases hslot : occupant slot t.2 with
      | none =>
          rw [clear_of_vacant hslot]
          exact .keep
      | some pid =>
          obtain ⟨hmem, hout, hmap⟩ := clear_of_occupant hwf hslot
          rw [hout, hmap]
          exact .drop hmem

theorem tableRun_wf (ops : List TableOp) : TableWf (tableRun ops).2 := by
  refine foldl_invariant (P := fun t : List TableEvent × SharedMemoryData => TableWf t.2)
    TableWf.zeroed ?_ ops
  intro t op h
  cases op with
  | update pid usage start => exact h.update pid usage start
  | clear slot => exact h.clearEntry slot

theorem usageMap_zeroed : usageMap zeroed = .empty := by
  ext1 k
  by_cases hk : k = 0
  · subst hk
    exact BoundedMap.get_ofSlots_hole
  · rw [usageMap, BoundedMap.get_ofSlots hk]
    have habs : lookup zeroed.processPids k = none :=
      (lookup_eq_none_iff _ _).mpr fun i heq => hk heq.symm
    rw [habs]
    rfl

/-- The trace of every sequence of calls is a trace of the map machine. -/
theorem tableRun_simulates (ops : List TableOp) :
    Run MapStep .empty (tableRun ops).1 (usageMap (tableRun ops).2) := by
  have hboth : TableWf (tableRun ops).2 ∧
      Run MapStep .empty (tableRun ops).1 (usageMap (tableRun ops).2) := by
    refine foldl_invariant
      (P := fun t : List TableEvent × SharedMemoryData =>
        TableWf t.2 ∧ Run MapStep .empty t.1 (usageMap t.2)) ?_ ?_ ops
    · refine ⟨TableWf.zeroed, ?_⟩
      rw [usageMap_zeroed]
      exact .start
    · rintro t op ⟨hwf, hrun⟩
      refine ⟨?_, tableStep_simulates hwf hrun op⟩
      cases op with
      | update pid usage start => exact hwf.update pid usage start
      | clear slot => exact hwf.clearEntry slot
  exact hboth.2

/-- **The process table refines a bounded finite map.**  After any calls from
the zeroed segment, with any start-time answers: the observed return values
form a run of the map machine ending in the map the table holds; the next
update succeeds and stores exactly when the pid is positive and has room, and
otherwise is refused with the segment untouched; the next clear of an occupied
slot answers the usage of its pid and removes the pid, and any other clear does
nothing; reads return the mapped usage or zeros; and calls about one pid never
change what is read for another. -/
theorem processTable_refines_boundedMap (ops : List TableOp) :
    let s := (tableRun ops).2
    Run MapStep .empty (tableRun ops).1 (usageMap s) ∧
    (∀ pid ∈ (usageMap s).keys, 0 < pid) ∧
    (∀ pid usage start, 0 < pid → ∀ hroom : (usageMap s).Room pid,
      (shmUpdateProcessResources pid usage start s).1 = 0 ∧
        usageMap (shmUpdateProcessResources pid usage start s).2 =
          (usageMap s).put pid usage hroom) ∧
    (∀ pid usage start, ¬(0 < pid ∧ (usageMap s).Room pid) →
      shmUpdateProcessResources pid usage start s = (-1, s)) ∧
    (∀ slot pid, occupant slot s = some pid → pid ∈ (usageMap s).keys ∧
      (shmClearProcessEntry slot s).1 = (usageMap s).get pid ∧
        usageMap (shmClearProcessEntry slot s).2 = (usageMap s).erase pid) ∧
    (∀ slot, occupant slot s = none → shmClearProcessEntry slot s = (none, s)) ∧
    (∀ pid, 0 < pid →
      shmGetProcessResources pid s = some (((usageMap s).get pid).getD .zero)) ∧
    (∀ pid usage start q, 0 < q → q ≠ pid →
      shmGetProcessResources q (shmUpdateProcessResources pid usage start s).2 =
        shmGetProcessResources q s) ∧
    (∀ slot q, 0 < q → (∀ i, slotOf? slot = some i → s.processPids i ≠ q) →
      shmGetProcessResources q (shmClearProcessEntry slot s).2 =
        shmGetProcessResources q s) := by
  have hwf := tableRun_wf ops
  refine ⟨tableRun_simulates ops, ?_, ?_, ?_, ?_, ?_, ?_, ?_, ?_⟩
  · intro pid hmem
    simp only [usageMap, BoundedMap.ofSlots, Finset.mem_image, mem_used] at hmem
    obtain ⟨i, hi, rfl⟩ := hmem
    exact lt_of_le_of_ne (hwf.pid_nonneg i) (Ne.symm hi)
  · intro pid usage start hpos hroom
    exact update_of_room hwf usage start hpos hroom
  · intro pid usage start hno
    exact update_of_not_room hwf usage start hno
  · intro slot pid hslot
    exact clear_of_occupant hwf hslot
  · intro slot hslot
    exact clear_of_vacant hslot
  · intro pid hpos
    exact shmGetProcessResources_eq _ hpos
  · intro pid usage start q hq hne
    exact get_after_update_ne hwf usage start hq hne
  · intro slot q hq hne
    exact get_after_clear_ne hwf hq hne

end MtRdma.Ports.SharedMemory
