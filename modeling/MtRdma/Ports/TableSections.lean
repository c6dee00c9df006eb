import MtRdma.Verified.LockedSections
import MtRdma.Ports.GlobalTotals

/-!
# The process table, access by access (`shared_memory.c`, `collector_server_shm.c`)

Of the writers of the process table these take the segment's spin lock: the
processes that publish their usage, the collector when it reclaims an entry or
scans the table, and whoever sets totals or limits.  `shm_init` and
`shm_clear_process_entry` write without it, and what is proved here is about runs
without them.  The readers do not take the lock either.
`shm_get_process_resources` and `shm_get_global_resources` look at the segment
as it is, and the hooks decide by what they return.

Elsewhere in this development each call is one step.  Here it is the sequence of
its accesses, and any number of processes run their sequences against each
other.

* `table_calls_atomic`: whatever the schedule, the writers in the order in which
  they release the lock are a run of single steps with the same answers.
* `own_usage_read_exactly`: a process that reads its entry while nobody works on
  it finds exactly what the completed calls left there, although the scan takes
  many accesses and the rest of the table changes meanwhile.
* `totals_seen_mixed`: a total read at any moment is the sum over a table in
  which each entry is as before the call under way, as after it, or gone.

`memset` goes field by field here, and `x -= y` is a read and a write.  What
`gc_scan_and_register` decides about an entry depends on the collector's own
table and on the kernel, so the decision is an argument of the call.
-/

namespace MtRdma.Ports.TableSections

open Verified.AccessCode
open Verified.LockedSections
open Verified.Runs
open Verified.SlotScan
open SharedMemory
open CollectorGc
open GlobalTotals (Reading TotalIsSum qpReading mrReading memoryReading
  modEq_of_class32 modEq_of_class64)

variable {pid other : Int} {s : SharedMemoryData} {slot : Slot} {usage : ResourceUsage}

/-- Accesses to the segment. -/
abbrev Access (β : Type) := Code SharedMemoryData β

/-! ## Entries and totals -/

/-- Look at a field of an entry. -/
def stat {α : Type} (slot : Slot) (f : ResourceUsage → α) : Access α :=
  .read fun s => f (s.processStats slot)

/-- Write a field of an entry. -/
def editStat (slot : Slot) (f : ResourceUsage → ResourceUsage) : Access Unit :=
  .write fun s =>
    { s with processStats := Function.update s.processStats slot (f (s.processStats slot)) }

def setPid (slot : Slot) (pid : Int) : Access Unit :=
  .write fun s => { s with processPids := Function.update s.processPids slot pid }

def setStart (slot : Slot) (start : UInt64) : Access Unit :=
  .write fun s => { s with processStartTimes := Function.update s.processStartTimes slot start }

/-- Write a field of the totals. -/
def editTotals (f : ResourceUsage → ResourceUsage) : Access Unit :=
  .write fun s => { s with globalStats := f s.globalStats }

/-- `version++`. -/
def countVersion : Access Unit := do
  let version ← .read (·.version)
  .write fun s => { s with version := version + 1 }

/-- The usage of an entry, copied field by field. -/
def copyStats (slot : Slot) : Access ResourceUsage := do
  let qp ← stat slot (·.qpCount)
  let mr ← stat slot (·.mrCount)
  let memory ← stat slot (·.memoryUsed)
  return ⟨qp, mr, memory⟩

/-- The usage of an entry, written field by field. -/
def writeStats (slot : Slot) (usage : ResourceUsage) : Access Unit := do
  editStat slot fun u => { u with qpCount := usage.qpCount }
  editStat slot fun u => { u with mrCount := usage.mrCount }
  editStat slot fun u => { u with memoryUsed := usage.memoryUsed }

/-- The totals, written field by field. -/
def writeTotals (usage : ResourceUsage) : Access Unit := do
  editTotals fun u => { u with qpCount := usage.qpCount }
  editTotals fun u => { u with mrCount := usage.mrCount }
  editTotals fun u => { u with memoryUsed := usage.memoryUsed }

/-- The totals less a usage that is known already. -/
def subtractTotals (dead : ResourceUsage) : Access Unit := do
  let qp ← .read (·.globalStats.qpCount)
  editTotals fun u => { u with qpCount := qp - dead.qpCount }
  let mr ← .read (·.globalStats.mrCount)
  editTotals fun u => { u with mrCount := mr - dead.mrCount }
  let memory ← .read (·.globalStats.memoryUsed)
  editTotals fun u => { u with memoryUsed := memory - dead.memoryUsed }

/-- The totals less an entry that is read on the way. -/
def subtractEntry (slot : Slot) : Access Unit := do
  let qp ← .read (·.globalStats.qpCount)
  let deadQp ← stat slot (·.qpCount)
  editTotals fun u => { u with qpCount := qp - deadQp }
  let mr ← .read (·.globalStats.mrCount)
  let deadMr ← stat slot (·.mrCount)
  editTotals fun u => { u with mrCount := mr - deadMr }
  let memory ← .read (·.globalStats.memoryUsed)
  let deadMemory ← stat slot (·.memoryUsed)
  editTotals fun u => { u with memoryUsed := memory - deadMemory }

/-- The totals and a difference. -/
def addTotals (delta : ResourceUsage) : Access Unit := do
  let qp ← .read (·.globalStats.qpCount)
  editTotals fun u => { u with qpCount := qp + delta.qpCount }
  let mr ← .read (·.globalStats.mrCount)
  editTotals fun u => { u with mrCount := mr + delta.mrCount }
  let memory ← .read (·.globalStats.memoryUsed)
  editTotals fun u => { u with memoryUsed := memory + delta.memoryUsed }

/-! ## The sections -/

/-- The loop of `shm_update_process_resources`: where `pid` is, and the first free
slot passed on the way. -/
def scanSlots (pid : Int) : Option Slot → List Slot → Access (Option Slot × Option Slot)
  | hole, [] => return (none, hole)
  | hole, i :: rest => do
      if ← .read fun s => decide (s.processPids i = pid) then return (some i, hole)
      if ← .read fun s => decide (s.processPids i = 0) then
        scanSlots pid (if hole = none then some i else hole) rest
      else scanSlots pid hole rest

/-- An entry that was found: is it that of an earlier process with this pid? -/
def refreshSection (slot : Slot) (start : UInt64) : Access Unit := do
  let stored ← .read fun s => s.processStartTimes slot
  if pidReused start stored then
    subtractEntry slot
    writeStats slot .zero
    setStart slot start

/-- A hole that becomes an entry. -/
def claimSection (slot : Slot) (pid : Int) (start : UInt64) : Access Unit := do
  setPid slot pid
  setStart slot start

/-- The common tail. -/
def storeSection (slot : Slot) (usage : ResourceUsage) : Access Unit := do
  let old ← copyStats slot
  writeStats slot usage
  addTotals (usage.sub old)
  countVersion

/-- `shm_update_process_resources`. -/
def updateSection (pid : Int) (usage : ResourceUsage) (start : UInt64) : Access Int := do
  match ← scanSlots pid none (List.finRange maxProcesses) with
  | (some slot, _) =>
      refreshSection slot start
      storeSection slot usage
      return 0
  | (none, some slot) =>
      claimSection slot pid start
      storeSection slot usage
      return 0
  | (none, none) => return -1

/-- `shm_update_global_resources`, and the first half of
`sync_ebpf_data_to_shared_memory`. -/
def setTotalsSection (usage : ResourceUsage) : Access Int := do
  writeTotals usage
  countVersion
  return 0

/-- `shm_set_global_limits`. -/
def setLimitsSection (maxQp maxMr : UInt32) (maxMemory : UInt64) : Access Int := do
  .write fun s => { s with maxGlobalQp := maxQp }
  .write fun s => { s with maxGlobalMr := maxMr }
  .write fun s => { s with maxGlobalMemory := maxMemory }
  return 0

/-- The block by which the collector empties an entry. -/
def reclaimSection (slot : Slot) : Access ResourceUsage := do
  let dead ← copyStats slot
  writeStats slot .zero
  setPid slot 0
  setStart slot 0
  subtractTotals dead
  countVersion
  return dead

/-- `gc_handle_process_exit` under the lock: the entry goes if it is still the one
that was registered.  The answer is what the tenant is to give back. -/
def exitSection (slot : Slot) (pid : Int) (start : UInt64) :
    Access (Option (Int × ResourceUsage)) := do
  let owner ← .read fun s => s.processPids slot
  if owner ≠ pid then return none
  let stored ← .read fun s => s.processStartTimes slot
  if stored ≠ start then return none
  let target ← .read fun s => s.processPids slot
  if target = 0 then return none
  return some (target, ← reclaimSection slot)

/-- The decision of the collector about an entry. -/
abbrev Reclaims := Slot → Int → UInt64 → Bool

/-- One turn of the loop of `gc_scan_and_register`. -/
def visitSection (reclaims : Reclaims) (slot : Slot) : Access Unit := do
  let pid ← .read fun s => s.processPids slot
  let start ← .read fun s => s.processStartTimes slot
  if pid = 0 then return ()
  if reclaims slot pid start then
    let _ ← reclaimSection slot

/-- `gc_scan_and_register`. -/
def sweepSection (reclaims : Reclaims) : Access Unit :=
  .each (visitSection reclaims) (List.finRange maxProcesses)

/-! ## Undisturbed, they are the functions -/

/-- An exit event as one step. -/
def exitEntry (slot : Slot) (pid : Int) (start : UInt64) (s : SharedMemoryData) :
    Option (Int × ResourceUsage) × SharedMemoryData :=
  if s.processPids slot = pid ∧ s.processStartTimes slot = start ∧ s.processPids slot ≠ 0 then
    (some (s.processPids slot, s.processStats slot), clearSlot slot s)
  else (none, s)

/-- A visit of the scan as one step. -/
def visitEntry (reclaims : Reclaims) (s : SharedMemoryData) (slot : Slot) : SharedMemoryData :=
  if s.processPids slot ≠ 0 ∧ reclaims slot (s.processPids slot) (s.processStartTimes slot) then
    clearSlot slot s
  else s

/-- A scan as one step. -/
def sweepEntries (reclaims : Reclaims) (s : SharedMemoryData) : SharedMemoryData :=
  (List.finRange maxProcesses).foldl (visitEntry reclaims) s

section Run

variable {slot : Slot} {s : SharedMemoryData}

@[simp] theorem run_stat {α : Type} (slot : Slot) (f : ResourceUsage → α) (s : SharedMemoryData) :
    (stat slot f).run s = (f (s.processStats slot), s) := rfl

@[simp] theorem run_copyStats (slot : Slot) (s : SharedMemoryData) :
    (copyStats slot).run s = (s.processStats slot, s) := rfl

@[simp] theorem run_writeStats (slot : Slot) (usage : ResourceUsage) (s : SharedMemoryData) :
    (writeStats slot usage).run s =
      ((), { s with processStats := Function.update s.processStats slot usage }) := by
  simp [writeStats, editStat]

@[simp] theorem run_writeTotals (usage : ResourceUsage) (s : SharedMemoryData) :
    (writeTotals usage).run s = ((), { s with globalStats := usage }) := rfl

@[simp] theorem run_subtractTotals (dead : ResourceUsage) (s : SharedMemoryData) :
    (subtractTotals dead).run s = ((), { s with globalStats := s.globalStats.sub dead }) := rfl

@[simp] theorem run_subtractEntry (slot : Slot) (s : SharedMemoryData) :
    (subtractEntry slot).run s =
      ((), { s with globalStats := s.globalStats.sub (s.processStats slot) }) := rfl

@[simp] theorem run_addTotals (delta : ResourceUsage) (s : SharedMemoryData) :
    (addTotals delta).run s = ((), { s with globalStats := s.globalStats.add delta }) := rfl

@[simp] theorem run_countVersion (s : SharedMemoryData) :
    countVersion.run s = ((), { s with version := s.version + 1 }) := rfl

theorem run_scanSlots (pid : Int) (s : SharedMemoryData) (slots : List Slot) :
    ∀ hole, (scanSlots pid hole slots).run s =
      (scanFrom s.processPids 0 pid hole slots, s) := by
  induction slots with
  | nil => intro hole; rfl
  | cons i rest ih =>
      intro hole
      rw [scanSlots, scanFrom, Code.run_bind, Code.run_read]
      by_cases hfound : s.processPids i = pid
      · simp [hfound]
      · by_cases hhole : s.processPids i = 0
        · have hpid : 0 ≠ pid := fun h => hfound (hhole.trans h)
          cases hole with
          | none | some => simp [hpid, hhole, ih]
        · simp [hfound, hhole, ih]

theorem run_refreshSection (slot : Slot) (start : UInt64) (s : SharedMemoryData) :
    (refreshSection slot start).run s = ((), refreshSlot slot start s) := by
  by_cases hreused : pidReused start (s.processStartTimes slot)
  · simp [refreshSection, refreshSlot, setStart, hreused]
  · simp [refreshSection, refreshSlot, hreused]

theorem run_claimSection (slot : Slot) (pid : Int) (start : UInt64) (s : SharedMemoryData) :
    (claimSection slot pid start).run s = ((), claimSlot slot pid start s) := rfl

theorem run_storeSection (slot : Slot) (usage : ResourceUsage) (s : SharedMemoryData) :
    (storeSection slot usage).run s = ((), storeUsage slot usage s) := by
  simp [storeSection, storeUsage]

theorem run_updateSection (hpid : ¬pid ≤ 0) (usage : ResourceUsage) (start : UInt64)
    (s : SharedMemoryData) :
    (updateSection pid usage start).run s = shmUpdateProcessResources pid usage start s := by
  have hscan : (scanSlots pid none (List.finRange maxProcesses)).run s =
      (scan s.processPids 0 pid, s) := run_scanSlots pid s _ none
  rw [updateSection, Code.run_bind, hscan, shmUpdateProcessResources, if_neg hpid]
  generalize scan s.processPids 0 pid = found
  rcases found with ⟨_ | slot, hole⟩
  · cases hole with
    | none => rfl
    | some slot => simp [run_claimSection, run_storeSection]
  · simp [run_refreshSection, run_storeSection]

theorem run_reclaimSection (slot : Slot) (s : SharedMemoryData) :
    (reclaimSection slot).run s = (s.processStats slot, clearSlot slot s) := by
  simp [reclaimSection, clearSlot, setPid, setStart]

theorem run_exitSection (slot : Slot) (pid : Int) (start : UInt64) (s : SharedMemoryData) :
    (exitSection slot pid start).run s = exitEntry slot pid start s := by
  by_cases howner : s.processPids slot = pid
  · by_cases hstored : s.processStartTimes slot = start
    · by_cases hhole : pid = 0
      · simp [exitSection, exitEntry, howner, hstored, hhole]
      · simp [exitSection, exitEntry, howner, hstored, hhole, run_reclaimSection]
    · simp [exitSection, exitEntry, howner, hstored]
  · simp [exitSection, exitEntry, howner]

theorem run_visitSection (reclaims : Reclaims) (slot : Slot) (s : SharedMemoryData) :
    (visitSection reclaims slot).run s = ((), visitEntry reclaims s slot) := by
  by_cases hhole : s.processPids slot = 0
  · simp [visitSection, visitEntry, hhole]
  · by_cases hgone : reclaims slot (s.processPids slot) (s.processStartTimes slot)
    · simp [visitSection, visitEntry, hhole, hgone, run_reclaimSection]
    · simp [visitSection, visitEntry, hhole, hgone]

theorem run_sweepSection (reclaims : Reclaims) (s : SharedMemoryData) :
    (sweepSection reclaims).run s = ((), sweepEntries reclaims s) := by
  rw [sweepSection, Code.run_each, sweepEntries]
  simp only [run_visitSection]

end Run

/-! ## The calls -/

/-- The functions that take the lock. -/
inductive SegmentCall where
  | update (pid : Int) (usage : ResourceUsage) (start : UInt64)
  | setTotals (usage : ResourceUsage)
  | setLimits (maxQp maxMr : UInt32) (maxMemory : UInt64)
  /-- An exit event for `slot`, which was registered with `pid` and `start`. -/
  | exit (slot : Slot) (pid : Int) (start : UInt64)
  | sweep (reclaims : Reclaims)

inductive SegmentAnswer where
  | code (rc : Int)
  | dead (entry : Option (Int × ResourceUsage))
  | done

/-- Each call as one step. -/
def execCall : SegmentCall → SharedMemoryData → SegmentAnswer × SharedMemoryData
  | .update pid usage start, s =>
      (.code (shmUpdateProcessResources pid usage start s).1,
        (shmUpdateProcessResources pid usage start s).2)
  | .setTotals usage, s => (.code 0, shmUpdateGlobalResources usage s)
  | .setLimits maxQp maxMr maxMemory, s => (.code 0, shmSetGlobalLimits maxQp maxMr maxMemory s)
  | .exit slot pid start, s =>
      (.dead (exitEntry slot pid start s).1, (exitEntry slot pid start s).2)
  | .sweep reclaims, s => (.done, sweepEntries reclaims s)

/-- Each call as the accesses it makes. -/
def segmentBody : SegmentCall → Body SharedMemoryData SegmentAnswer
  | .update pid usage start =>
      if pid ≤ 0 then .refused (.code (-1))
      else .locked do return .code (← updateSection pid usage start)
  | .setTotals usage => .locked do return .code (← setTotalsSection usage)
  | .setLimits maxQp maxMr maxMemory =>
      .locked do return .code (← setLimitsSection maxQp maxMr maxMemory)
  | .exit slot pid start => .locked do return .dead (← exitSection slot pid start)
  | .sweep reclaims => .locked do
      sweepSection reclaims
      return .done

theorem segmentBody_update (hpid : ¬pid ≤ 0) (usage : ResourceUsage) (start : UInt64) :
    segmentBody (.update pid usage start) =
      .locked (do return .code (← updateSection pid usage start)) := by
  rw [segmentBody, if_neg hpid]

theorem segmentBody_implements : Implements segmentBody execCall where
  refused := by
    intro call b hbody s
    cases call with
    | update pid usage start =>
        by_cases hpid : pid ≤ 0
        · rw [segmentBody, if_pos hpid] at hbody
          obtain rfl := Body.refused.inj hbody
          simp [execCall, shmUpdateProcessResources, hpid]
        · rw [segmentBody, if_neg hpid] at hbody
          cases hbody
    | setTotals | setLimits | exit | sweep => cases hbody
  locked := by
    intro call code hbody s
    cases call with
    | update pid usage start =>
        by_cases hpid : pid ≤ 0
        · rw [segmentBody, if_pos hpid] at hbody
          cases hbody
        · rw [segmentBody_update hpid] at hbody
          obtain rfl := Body.locked.inj hbody
          rw [Code.run_bind, run_updateSection hpid]
          rfl
    | setTotals usage =>
        obtain rfl := Body.locked.inj hbody
        rfl
    | setLimits maxQp maxMr maxMemory =>
        obtain rfl := Body.locked.inj hbody
        rfl
    | exit slot pid start =>
        obtain rfl := Body.locked.inj hbody
        rw [Code.run_bind, run_exitSection]
        rfl
    | sweep reclaims =>
        obtain rfl := Body.locked.inj hbody
        rw [Code.run_bind, run_sweepSection]
        rfl

/-! ### The collector's calls -/

/-- What `gc_scan_and_register` decides about an entry, given the answers of the
kernel and the registrations at the start. -/
def scanReclaims (probes : Slot → SlotProbe) (pidfds : Slot → PidfdEntry) : Reclaims :=
  fun slot pid start =>
    !gcIsProcessReallyAlive (probes slot).status &&
      if (pidfds slot).pidfd < 0 then decide ((registered pid start (probes slot)).pidfd < 0)
      else decide (pid = (pidfds slot).pid ∧ start = (pidfds slot).startTime)

/-- An exit event acts on the segment as its section does. -/
theorem gcHandleProcessExit_shm (slot : Slot) (g : GcState) :
    (gcHandleProcessExit slot g).shm =
      (exitEntry slot (g.pidfds slot).pid (g.pidfds slot).startTime g.shm).2 := by
  unfold exitEntry
  rcases gcHandleProcessExit_cases slot g with ⟨hkept, hshm, -⟩ | ⟨⟨hpid, hstart⟩, hocc, hshm, -⟩
  · rw [if_neg fun h => hkept ⟨⟨h.1, h.2.1⟩, h.2.2⟩, hshm]
  · rw [if_pos ⟨hpid, hstart, hocc⟩, hshm]

theorem gcScanSlot_shm (probes : Slot → SlotProbe) (slot : Slot) (g : GcState) :
    (gcScanSlot (probes slot) slot g).shm =
      visitEntry (scanReclaims probes g.pidfds) g.shm slot := by
  unfold gcScanSlot visitEntry scanReclaims
  by_cases hhole : g.shm.processPids slot = 0
  · simp only [hhole, ne_eq, not_true_eq_false, false_and, if_true, if_false]
    split <;> rfl
  · rw [if_neg hhole]
    by_cases hunregistered : (g.pidfds slot).pidfd < 0
    · simp only [hunregistered, gcRegisterPidfd_pidfds, Function.update_self, if_true]
      split_ifs <;> simp_all [reclaimScanned]
    · simp only [hunregistered, if_false]
      split_ifs <;> simp_all [reclaimScanned, SlotUnchanged, gcClosePidfd]

theorem foldl_gcScanSlot_shm (probes : Slot → SlotProbe) (pidfds : Slot → PidfdEntry)
    (slots : List Slot) :
    ∀ g : GcState, slots.Nodup → (∀ slot ∈ slots, g.pidfds slot = pidfds slot) →
      (slots.foldl (fun g slot => gcScanSlot (probes slot) slot g) g).shm =
        slots.foldl (visitEntry (scanReclaims probes pidfds)) g.shm := by
  induction slots with
  | nil => intro g _ _; rfl
  | cons slot slots ih =>
      intro g hnodup hsame
      obtain ⟨hnot, hnodup⟩ := List.nodup_cons.mp hnodup
      have hvisit : visitEntry (scanReclaims probes g.pidfds) g.shm slot =
          visitEntry (scanReclaims probes pidfds) g.shm slot := by
        unfold visitEntry scanReclaims
        rw [hsame slot List.mem_cons_self]
      rw [List.foldl_cons, List.foldl_cons, ← hvisit, ← gcScanSlot_shm]
      refine ih _ hnodup fun other hother => ?_
      have hne : slot ≠ other := by
        rintro rfl
        exact hnot hother
      have hframe := congrArg SlotView.entry (gcScanSlot_frame (probes slot) hne g)
      rw [slotView_entry, slotView_entry] at hframe
      rw [hframe]
      exact hsame other (List.mem_cons_of_mem _ hother)

/-- A scan acts on the segment as its section does. -/
theorem gcScanAndRegister_shm (probes : Slot → SlotProbe) (g : GcState) :
    (gcScanAndRegister probes g).shm = sweepEntries (scanReclaims probes g.pidfds) g.shm :=
  foldl_gcScanSlot_shm probes g.pidfds _ g (List.nodup_finRange _) fun _ _ => rfl

/-! ## The cases of a call -/

theorem keeps_scanSlots (P : SharedMemoryData → Prop) (pid : Int) (slots : List Slot) :
    ∀ hole, Code.Keeps P (scanSlots pid hole slots) := by
  induction slots with
  | nil => exact fun hole => .pure P _
  | cons i rest ih =>
      exact fun hole => .read_bind fun found =>
        .ite (.pure P _) (.read_bind fun free => .ite (ih _) (ih hole))

/-- The search only looks, so what the section passes through is decided after
it. -/
theorem throughout_updateSection {P : SharedMemoryData → Prop} {start : UInt64} (hs : P s)
    (hfound : ∀ slot, lookup s.processPids pid = some slot →
      (refreshSection slot start).Throughout P s ∧
        (storeSection slot usage).Throughout P (refreshSlot slot start s))
    (hadded : ∀ slot, lookup s.processPids pid = none → lookup s.processPids 0 = some slot →
      (claimSection slot pid start).Throughout P s ∧
        (storeSection slot usage).Throughout P (claimSlot slot pid start s)) :
    (updateSection pid usage start).Throughout P s := by
  have hscan : (scanSlots pid none (List.finRange maxProcesses)).run s =
      (scan s.processPids 0 pid, s) := run_scanSlots pid s _ none
  rw [updateSection, Code.throughout_bind, hscan]
  refine ⟨keeps_scanSlots P pid _ none s hs, ?_⟩
  cases hl : lookup s.processPids pid with
  | some slot =>
      have hfst := (scan_fst s.processPids 0 pid).trans hl
      generalize scan s.processPids 0 pid = r at hfst
      obtain ⟨found, hole⟩ := r
      obtain rfl : found = some slot := hfst
      obtain ⟨hrefresh, hstore⟩ := hfound slot hl
      refine Code.throughout_bind.mpr ⟨hrefresh, ?_⟩
      rw [run_refreshSection]
      exact hstore.returning _
  | none =>
      rw [scan_eq_lookup hl]
      cases hh : lookup s.processPids 0 with
      | none => exact hs
      | some slot =>
          obtain ⟨hclaim, hstore⟩ := hadded slot hl hh
          exact Code.throughout_bind.mpr ⟨hclaim, hstore.returning _⟩

/-- An exit event, by the block that empties the entry. -/
theorem throughout_exitSection {P : SharedMemoryData → Prop} {start : UInt64} (hs : P s)
    (hreclaim : s.processPids slot = pid → s.processStartTimes slot = start →
      s.processPids slot ≠ 0 → (reclaimSection slot).Throughout P s) :
    (exitSection slot pid start).Throughout P s := by
  refine Code.throughout_read_bind.mpr ⟨hs, ?_⟩
  split
  · exact hs
  · next howner =>
      refine Code.throughout_read_bind.mpr ⟨hs, ?_⟩
      split
      · exact hs
      · next hstored =>
          refine Code.throughout_read_bind.mpr ⟨hs, ?_⟩
          split
          · exact hs
          · next hocc =>
              exact (hreclaim (not_not.mp howner) (not_not.mp hstored) hocc).returning _

/-- A visit of the scan, by the same block. -/
theorem throughout_visitSection {P : SharedMemoryData → Prop} {reclaims : Reclaims} (hs : P s)
    (hreclaim : reclaims slot (s.processPids slot) (s.processStartTimes slot) = true →
      (reclaimSection slot).Throughout P s) :
    (visitSection reclaims slot).Throughout P s := by
  refine Code.throughout_read_bind.mpr ⟨hs, Code.throughout_read_bind.mpr ⟨hs, ?_⟩⟩
  split
  · exact hs
  · split
    · next hgone => exact (hreclaim hgone).returning _
    · exact hs

/-! ## The entry of one process -/

/-- The part of the table that belongs to `pid`. -/
def rowsOf (pid : Int) (s : SharedMemoryData) : Slot → Option ResourceUsage := fun slot =>
  if s.processPids slot = pid then some (s.processStats slot) else none

/-- `slot` belongs to someone else, and the rows of `pid` are `rows`. -/
def Elsewhere (pid : Int) (slot : Slot) (rows : Slot → Option ResourceUsage)
    (s : SharedMemoryData) : Prop :=
  s.processPids slot ≠ pid ∧ rowsOf pid s = rows

section Elsewhere

variable {pid : Int} {slot : Slot} {rows : Slot → Option ResourceUsage}

theorem Elsewhere.editStat (h : Elsewhere pid slot rows s) (usage : ResourceUsage) :
    Elsewhere pid slot rows
      { s with processStats := Function.update s.processStats slot usage } := by
  refine ⟨h.1, Eq.trans ?_ h.2⟩
  funext i
  by_cases hi : i = slot
  · subst hi
    simp [rowsOf, h.1]
  · simp [rowsOf, hi]

theorem Elsewhere.setPid (h : Elsewhere pid slot rows s) (hother : other ≠ pid) :
    Elsewhere pid slot rows
      { s with processPids := Function.update s.processPids slot other } := by
  refine ⟨by simpa using hother, Eq.trans ?_ h.2⟩
  funext i
  by_cases hi : i = slot
  · subst hi
    simp [rowsOf, h.1, hother]
  · simp [rowsOf, hi]

theorem keeps_writeStats (usage : ResourceUsage) :
    Code.Keeps (Elsewhere pid slot rows) (writeStats slot usage) :=
  .bind (.write fun _ h => h.editStat _) fun _ =>
    .bind (.write fun _ h => h.editStat _) fun _ => .write fun _ h => h.editStat _

theorem keeps_copyStats (P : SharedMemoryData → Prop) (slot : Slot) :
    Code.Keeps P (copyStats slot) :=
  .read_bind fun _ => .read_bind fun _ => .read_bind fun _ => .pure P _

theorem keeps_subtractTotals (dead : ResourceUsage) :
    Code.Keeps (Elsewhere pid slot rows) (subtractTotals dead) :=
  .read_bind fun _ => .bind (.write fun _ h => h) fun _ =>
    .read_bind fun _ => .bind (.write fun _ h => h) fun _ =>
      .read_bind fun _ => .write fun _ h => h

theorem keeps_subtractEntry :
    Code.Keeps (Elsewhere pid slot rows) (subtractEntry slot) :=
  .read_bind fun _ => .read_bind fun _ => .bind (.write fun _ h => h) fun _ =>
    .read_bind fun _ => .read_bind fun _ => .bind (.write fun _ h => h) fun _ =>
      .read_bind fun _ => .read_bind fun _ => .write fun _ h => h

theorem keeps_addTotals (delta : ResourceUsage) :
    Code.Keeps (Elsewhere pid slot rows) (addTotals delta) :=
  .read_bind fun _ => .bind (.write fun _ h => h) fun _ =>
    .read_bind fun _ => .bind (.write fun _ h => h) fun _ =>
      .read_bind fun _ => .write fun _ h => h

theorem keeps_countVersion : Code.Keeps (Elsewhere pid slot rows) countVersion :=
  .read_bind fun _ => .write fun _ h => h

theorem keeps_refreshSection (start : UInt64) :
    Code.Keeps (Elsewhere pid slot rows) (refreshSection slot start) :=
  .read_bind fun _ => .ite
    (.bind keeps_subtractEntry fun _ => .bind (keeps_writeStats .zero) fun _ => .write fun _ h => h)
    (.pure _ _)

theorem keeps_storeSection (usage : ResourceUsage) :
    Code.Keeps (Elsewhere pid slot rows) (storeSection slot usage) :=
  .bind (keeps_copyStats _ slot) fun _ => .bind (keeps_writeStats usage) fun _ =>
    .bind (keeps_addTotals _) fun _ => keeps_countVersion

theorem keeps_claimSection (hother : other ≠ pid) (start : UInt64) :
    Code.Keeps (Elsewhere pid slot rows) (claimSection slot other start) :=
  .bind (.write fun _ h => h.setPid hother) fun _ => .write fun _ h => h

theorem keeps_reclaimSection (hpid : 0 ≠ pid) :
    Code.Keeps (Elsewhere pid slot rows) (reclaimSection slot) :=
  .bind (keeps_copyStats _ slot) fun _ => .bind (keeps_writeStats .zero) fun _ =>
    .bind (.write fun _ h => h.setPid hpid) fun _ => .bind (.write fun _ h => h) fun _ =>
      .bind (keeps_subtractTotals _) fun _ => .bind keeps_countVersion fun _ => .pure _ _

end Elsewhere

/-- The calls that are about `pid`. -/
def SegmentCall.Touches (pid : Int) : SegmentCall → Prop
  | update other _ _ => other = pid
  | setTotals _ => False
  | setLimits _ _ _ => False
  | exit _ other _ => other = pid
  | sweep reclaims => ∃ slot start, reclaims slot pid start = true

theorem throughout_reclaim_elsewhere (hpid : 0 < pid) {s' : SharedMemoryData}
    (hslot : s.processPids slot ≠ pid) (hrows : rowsOf pid s = rowsOf pid s') :
    (reclaimSection slot).Throughout (fun m => rowsOf pid m = rowsOf pid s') s :=
  (keeps_reclaimSection hpid.ne s ⟨hslot, hrows⟩).imp fun _ h => h.2

theorem throughout_update_elsewhere (hpid : 0 < pid) (hother : other ≠ pid)
    (usage : ResourceUsage) (start : UInt64) (s : SharedMemoryData) :
    (updateSection other usage start).Throughout (fun m => rowsOf pid m = rowsOf pid s) s := by
  refine throughout_updateSection rfl ?_ ?_
  · intro slot hl
    have helsewhere : Elsewhere pid slot (rowsOf pid s) s := ⟨lookup_some hl ▸ hother, rfl⟩
    have hrefresh := keeps_refreshSection start s helsewhere
    have hafter := hrefresh.last
    rw [run_refreshSection] at hafter
    exact ⟨hrefresh.imp fun _ h => h.2, (keeps_storeSection usage _ hafter).imp fun _ h => h.2⟩
  · intro slot _ hh
    have helsewhere : Elsewhere pid slot (rowsOf pid s) s := ⟨lookup_some hh ▸ hpid.ne, rfl⟩
    have hclaim := keeps_claimSection hother start s helsewhere
    exact ⟨hclaim.imp fun _ h => h.2,
      (keeps_storeSection usage _ hclaim.last).imp fun _ h => h.2⟩

theorem throughout_exit_elsewhere (hpid : 0 < pid) (hother : other ≠ pid) (slot : Slot)
    (start : UInt64) (s : SharedMemoryData) :
    (exitSection slot other start).Throughout (fun m => rowsOf pid m = rowsOf pid s) s :=
  throughout_exitSection rfl fun howner _ _ =>
    throughout_reclaim_elsewhere hpid (howner ▸ hother) rfl

theorem throughout_sweep_elsewhere (hpid : 0 < pid) {reclaims : Reclaims}
    (hreclaims : ∀ slot start, ¬reclaims slot pid start = true) (s : SharedMemoryData) :
    (sweepSection reclaims).Throughout (fun m => rowsOf pid m = rowsOf pid s) s := by
  have hvisit : ∀ (slot : Slot) {m : SharedMemoryData}, rowsOf pid m = rowsOf pid s →
      (visitSection reclaims slot).Throughout (fun m => rowsOf pid m = rowsOf pid s) m := by
    intro slot m hm
    refine throughout_visitSection hm fun hgone => throughout_reclaim_elsewhere hpid ?_ hm
    intro hslot
    rw [hslot] at hgone
    exact hreclaims slot _ hgone
  exact Code.throughout_each (fun h => h)
    (fun slot _ hm => ⟨hvisit slot hm, (hvisit slot hm).last⟩) _ rfl

/-- A call that is not about `pid` leaves its row alone at every access. -/
theorem throughout_of_not_touches (hpid : 0 < pid) {call : SegmentCall}
    {whole : Access SegmentAnswer} (hcall : ¬call.Touches pid)
    (hbody : segmentBody call = .locked whole) (s : SharedMemoryData) :
    whole.Throughout (fun m => rowsOf pid m = rowsOf pid s) s := by
  cases call with
  | update other usage start =>
      rw [segmentBody] at hbody
      split at hbody
      · cases hbody
      · obtain rfl := Body.locked.inj hbody
        exact (throughout_update_elsewhere hpid hcall usage start s).returning _
  | setTotals usage =>
      obtain rfl := Body.locked.inj hbody
      refine Code.Throughout.returning ?_ _
      exact ⟨rfl, rfl, rfl, rfl, rfl, rfl⟩
  | setLimits maxQp maxMr maxMemory =>
      obtain rfl := Body.locked.inj hbody
      refine Code.Throughout.returning ?_ _
      exact ⟨rfl, rfl, rfl, rfl⟩
  | exit slot other start =>
      obtain rfl := Body.locked.inj hbody
      exact (throughout_exit_elsewhere hpid hcall slot start s).returning _
  | sweep reclaims =>
      obtain rfl := Body.locked.inj hbody
      have hreclaims : ∀ slot start, ¬reclaims slot pid start = true := by
        intro slot start h
        exact hcall ⟨slot, start, h⟩
      exact (throughout_sweep_elsewhere hpid hreclaims s).returning _

/-! ### Reading it -/

/-- The loop of `shm_get_process_resources`. -/
def readEntry (pid : Int) : List Slot → Access (Option ResourceUsage)
  | [] => return some .zero
  | slot :: rest => do
      let owner ← .read fun s => s.processPids slot
      if owner = pid then
        let qp ← stat slot (·.qpCount)
        let mr ← stat slot (·.mrCount)
        let memory ← stat slot (·.memoryUsed)
        return some ⟨qp, mr, memory⟩
      else readEntry pid rest

/-- `shm_get_process_resources`, without the lock. -/
def getProcessResources (pid : Int) : Access (Option ResourceUsage) :=
  if pid ≤ 0 then return none else readEntry pid (List.finRange maxProcesses)

theorem rowsOf_eq_iff {m : SharedMemoryData} :
    rowsOf pid m = rowsOf pid s ↔ ∀ slot, (m.processPids slot = pid ↔ s.processPids slot = pid) ∧
      (s.processPids slot = pid → m.processStats slot = s.processStats slot) := by
  rw [funext_iff]
  refine forall_congr' fun slot => ?_
  unfold rowsOf
  split_ifs with hm hs hs
  · simp [hm, hs]
  · simp [hm, hs]
  · simp [hm, hs]
  · simp [hm, hs]

/-- However the rest of the table changes between the accesses, the loop finds the
entry. -/
theorem readEntry_answers (pid : Int) (s : SharedMemoryData) (slots : List Slot) :
    (readEntry pid slots).Answers (fun m => rowsOf pid m = rowsOf pid s) fun answer =>
      answer = some (((slots.find? fun slot => decide (s.processPids slot = pid)).map
        s.processStats).getD .zero) := by
  induction slots with
  | nil => rfl
  | cons slot rest ih =>
      have hrow : ∀ m, rowsOf pid m = rowsOf pid s → s.processPids slot = pid →
          m.processStats slot = s.processStats slot :=
        fun m hm => (rowsOf_eq_iff.mp hm slot).2
      intro m hm
      have howner := (rowsOf_eq_iff.mp hm slot).1
      by_cases hslot : s.processPids slot = pid
      · show Code.Answers _ _ (if m.processPids slot = pid then _ else _)
        rw [if_pos (howner.mpr hslot)]
        intro m₁ hm₁ m₂ hm₂ m₃ hm₃
        show some (⟨(m₁.processStats slot).qpCount, (m₂.processStats slot).mrCount,
          (m₃.processStats slot).memoryUsed⟩ : ResourceUsage) = _
        rw [hrow m₁ hm₁ hslot, hrow m₂ hm₂ hslot, hrow m₃ hm₃ hslot]
        simp [hslot]
      · show Code.Answers _ _ (if m.processPids slot = pid then _ else _)
        rw [if_neg fun h => hslot (howner.mp h)]
        simpa [hslot] using ih

theorem getProcessResources_answers (pid : Int) (s : SharedMemoryData) :
    (getProcessResources pid).Answers (fun m => rowsOf pid m = rowsOf pid s) fun answer =>
      answer = shmGetProcessResources pid s := by
  unfold getProcessResources shmGetProcessResources
  split
  · rfl
  · have hanswers := readEntry_answers pid s (List.finRange maxProcesses)
    change Code.Answers _ (fun answer => answer = some (((lookup s.processPids pid).map
      s.processStats).getD .zero)) _ at hanswers
    cases hl : lookup s.processPids pid with
    | none | some => simpa [hl] using hanswers

theorem atMost_getProcessResources (pid : Int) : (getProcessResources pid).AtMost 1027 := by
  have hloop : ∀ slots : List Slot, (readEntry pid slots).AtMost (slots.length + 3) := by
    intro slots
    induction slots with
    | nil => exact .pure _ _
    | cons slot rest ih =>
        have hfound : ∀ n : Nat, (do
            let qp ← stat slot (·.qpCount)
            let mr ← stat slot (·.mrCount)
            let memory ← stat slot (·.memoryUsed)
            return some ⟨qp, mr, memory⟩ : Access (Option ResourceUsage)).AtMost (n + 3) :=
          fun n => .read_bind fun _ => .read_bind fun _ => .read_bind fun _ => .pure n _
        exact .read_bind fun _ => .ite (hfound _) ih
  refine .ite (.pure _ _) ((hloop (List.finRange maxProcesses)).mono ?_)
  rw [List.length_finRange, maxProcesses_eq]

/-- **A process reads its own entry exactly.**  Once the calls of `labels` are
completed and nobody is busy with `pid`, a reader who goes through the table
without the lock, one access at a time and at any moments as long as nobody
becomes busy with `pid`, gets the usage that these calls left, and has it after
at most 1027 accesses. -/
theorem own_usage_read_exactly {ι : Type} [DecidableEq ι]
    {labels : List (ι × Event SegmentCall SegmentAnswer)}
    {c₀ : State ι SharedMemoryData SegmentCall SegmentAnswer}
    (hrun : Run (SectionStep segmentBody) (start zeroed) labels c₀) {pid : Int}
    (honly : Only (fun call => ¬call.Touches pid) c₀) {ms : List SharedMemoryData}
    (hms : ∀ m ∈ ms, ∃ more c, Run (fun c label c' => SectionStep segmentBody c label c' ∧
      Only (fun call => ¬call.Touches pid) c') c₀ more c ∧ c.shared.memory = m)
    (hlength : 1027 ≤ ms.length) :
    ∃ s rest, Run (Atomic execCall) zeroed (completed labels) s ∧
      (getProcessResources pid).seen ms = some (shmGetProcessResources pid s, rest) := by
  obtain ⟨s, hatomic, hbetween⟩ := between_of_run segmentBody_implements hrun
  obtain ⟨⟨answer, rest⟩, hseen⟩ :=
    Option.isSome_iff_exists.mp ((atMost_getProcessResources pid).seen_isSome hlength)
  refine ⟨s, rest, hatomic, ?_⟩
  by_cases hpid : pid ≤ 0
  · have hnone : shmGetProcessResources pid s = none := if_pos hpid
    rw [getProcessResources, if_pos hpid, Code.seen_pure] at hseen
    obtain ⟨rfl, rfl⟩ := Prod.mk.inj (Option.some.inj hseen)
    rw [getProcessResources, if_pos hpid, Code.seen_pure, hnone]
  · have hrows : ∀ m ∈ ms, rowsOf pid m = rowsOf pid s := by
      intro m hm
      obtain ⟨more, c, hmore, rfl⟩ := hms m hm
      exact view_kept segmentBody_implements
        (fun hcall hbody s => throughout_of_not_touches (not_le.mp hpid) hcall hbody s)
        hbetween honly hmore
    rw [hseen, (getProcessResources_answers pid s).seen hrows hseen]

/-- Process 7 has published its usage, and then process 8. -/
def bothPublished : SharedMemoryData :=
  storeUsage 1 ⟨4, 5, 6⟩ (claimSlot 1 8 9 (storeUsage 0 ⟨1, 2, 3⟩ (claimSlot 0 7 5 zeroed)))

theorem update_second :
    shmUpdateProcessResources 8 ⟨4, 5, 6⟩ 9 (storeUsage 0 ⟨1, 2, 3⟩ (claimSlot 0 7 5 zeroed)) =
      (0, bothPublished) := by
  have hpids : (storeUsage 0 ⟨1, 2, 3⟩ (claimSlot 0 7 5 zeroed)).processPids =
      Function.update zeroed.processPids 0 7 := rfl
  have habs : lookup (Function.update zeroed.processPids 0 7) 8 = none := by
    refine (lookup_eq_none_iff _ _).mpr fun i => ?_
    by_cases hi : i = 0
    · rw [hi, Function.update_self]
      decide
    · rw [Function.update_of_ne hi]
      exact show (0 : Int) ≠ 8 by decide
  have hhole : lookup (Function.update zeroed.processPids 0 7) 0 = some 1 := by decide +kernel
  unfold shmUpdateProcessResources
  rw [if_neg (by decide), hpids, scan_eq_lookup habs, hhole]
  rfl

/-- A process publishes its usage and is left alone. -/
theorem publish_run {time : UInt64} {s' : SharedMemoryData} (hpid : ¬pid ≤ 0)
    (hupdate : shmUpdateProcessResources pid usage time s = (0, s')) (i : Fin 2) :
    ∃ labels : List (Fin 2 × Event SegmentCall SegmentAnswer),
      completed labels = [(i, .update pid usage time, .code 0)] ∧
        Run (SectionStep segmentBody) (start s) labels (start s') := by
  obtain ⟨labels, c, hrun, hcompleted, hend⟩ := call_completes (i := i)
    (segmentBody_update hpid usage time) (c := start s) rfl rfl
  have hcode : (updateSection pid usage time >>= fun rc => pure (SegmentAnswer.code rc)).run s =
      (.code 0, s') := by
    rw [Code.run_bind, run_updateSection hpid, hupdate]
    rfl
  refine ⟨labels, hcompleted.trans ?_, ?_⟩
  · exact congrArg (fun r : SegmentAnswer × SharedMemoryData =>
      [(i, SegmentCall.update pid usage time, r.1)]) hcode
  · have hstart : c = start s' := by
      rw [hend]
      refine congrArg₂ Verified.Interleaving.Config.mk ?_ (Function.update_eq_self i _)
      exact congrArg (fun r : SegmentAnswer × SharedMemoryData => LockedMemory.mk false r.2) hcode
    exact hstart ▸ hrun

/-- Processes 7 and 8 publish their usage, one after the other. -/
theorem bothPublished_run :
    ∃ labels : List (Fin 2 × Event SegmentCall SegmentAnswer),
      completed labels =
        [(0, .update 7 ⟨1, 2, 3⟩ 5, .code 0), (1, .update 8 ⟨4, 5, 6⟩ 9, .code 0)] ∧
        Run (SectionStep segmentBody) (start zeroed) labels (start bothPublished) := by
  obtain ⟨first, hfirst, hrun⟩ := publish_run (show ¬(7 : Int) ≤ 0 by decide)
    (update_zeroed (show (0 : Int) < 7 by decide) ⟨1, 2, 3⟩ 5) 0
  obtain ⟨second, hsecond, hmore⟩ := publish_run (by decide) update_second 1
  refine ⟨first ++ second, ?_, hrun.append hmore⟩
  unfold completed at hfirst hsecond ⊢
  rw [List.filterMap_append, hfirst, hsecond]
  rfl

/-- Process 7 reads its entry.  Meanwhile process 8 publishes more: from the second
read on, the reader finds the entry of process 8 half written. -/
theorem own_usage_read_exactly_published :
    ∃ (labels : List (Fin 2 × Event SegmentCall SegmentAnswer))
      (m s : SharedMemoryData) (rest : List SharedMemoryData),
      completed labels =
        [(0, .update 7 ⟨1, 2, 3⟩ 5, .code 0), (1, .update 8 ⟨4, 5, 6⟩ 9, .code 0)] ∧
        m.processStats 1 = ⟨40, 5, 6⟩ ∧
        Run (Atomic execCall) zeroed (completed labels) s ∧
        (getProcessResources 7).seen (bothPublished :: List.replicate 1026 m) =
          some (shmGetProcessResources 7 s, rest) := by
  obtain ⟨labels, hcompleted, hrun⟩ := bothPublished_run
  have honly : Only (fun call => ¬SegmentCall.Touches 7 call)
      (start bothPublished : State (Fin 2) SharedMemoryData SegmentCall SegmentAnswer) :=
    fun _ _ hcall => nomatch hcall
  obtain ⟨between, -, hother⟩ := call_goes_on (i := (1 : Fin 2)) 8
    (segmentBody_update (by decide) ⟨40, 50, 60⟩ 9) (c := start bothPublished) rfl rfl honly
    (show ¬(8 : Int) = 7 by decide)
  let m := ((updateSection 8 ⟨40, 50, 60⟩ 9 >>= fun rc => pure (SegmentAnswer.code rc)).after 8
    bothPublished).2
  have hlength : 1027 ≤ (bothPublished :: List.replicate 1026 m).length := by
    rw [List.length_cons, List.length_replicate]
  obtain ⟨s, rest, hatomic, hseen⟩ := own_usage_read_exactly hrun honly (fun m' hm' => by
    rcases List.mem_cons.mp hm' with rfl | hm'
    · exact ⟨[], _, .start, rfl⟩
    · exact ⟨between, _, hother, (List.eq_of_mem_replicate hm').symm⟩) hlength
  refine ⟨labels, m, s, rest, hcompleted, ?_, hatomic, hseen⟩
  show (((updateSection 8 ⟨40, 50, 60⟩ 9 >>= fun rc => pure (SegmentAnswer.code rc)).after 8
    bothPublished).2).processStats 1 = ⟨40, 5, 6⟩
  decide +kernel

/-! ## The totals at any moment -/

section Totals

variable {G : Type} [AddCommGroup G] {r : Reading G} {s : SharedMemoryData} {ok : G → Prop}

/-- A reading that one field decides: when the fields are written one after the
other, it changes once. -/
def Single (r : Reading G) : Prop :=
  ∀ u v : ResourceUsage,
    (r.read ⟨v.qpCount, u.mrCount, u.memoryUsed⟩ = r.read u ∨
      r.read ⟨v.qpCount, u.mrCount, u.memoryUsed⟩ = r.read v) ∧
    (r.read ⟨v.qpCount, v.mrCount, u.memoryUsed⟩ = r.read u ∨
      r.read ⟨v.qpCount, v.mrCount, u.memoryUsed⟩ = r.read v)

theorem single_qp : Single qpReading := fun _ _ => ⟨.inr rfl, .inr rfl⟩

theorem single_mr : Single mrReading := fun _ _ => ⟨.inl rfl, .inr rfl⟩

theorem single_memory : Single memoryReading := fun _ _ => ⟨.inl rfl, .inl rfl⟩

/-- What the totals read as is in `ok`. -/
def TotalOk (r : Reading G) (ok : G → Prop) (s : SharedMemoryData) : Prop :=
  ok (r.read s.globalStats)

/-- Totals on their way from `u` to `v`. -/
theorem Single.between (hr : Single r) {u v : ResourceUsage} (hu : ok (r.read u))
    (hv : ok (r.read v)) : ok (r.read ⟨v.qpCount, u.mrCount, u.memoryUsed⟩) ∧
      ok (r.read ⟨v.qpCount, v.mrCount, u.memoryUsed⟩) := by
  obtain ⟨hfirst, hsecond⟩ := hr u v
  constructor
  · rcases hfirst with h | h
    · rwa [h]
    · rwa [h]
  · rcases hsecond with h | h
    · rwa [h]
    · rwa [h]

theorem throughout_subtractTotals (hr : Single r) {dead : ResourceUsage} (hs : TotalOk r ok s)
    (hend : ok (r.read (s.globalStats.sub dead))) :
    (subtractTotals dead).Throughout (TotalOk r ok) s := by
  obtain ⟨hfirst, hsecond⟩ := hr.between hs hend
  exact ⟨hs, hs, hfirst, hfirst, hsecond, hsecond, hend⟩

theorem throughout_subtractEntry (hr : Single r) (hs : TotalOk r ok s)
    (hend : ok (r.read (s.globalStats.sub (s.processStats slot)))) :
    (subtractEntry slot).Throughout (TotalOk r ok) s := by
  obtain ⟨hfirst, hsecond⟩ := hr.between hs hend
  exact ⟨hs, hs, hs, hfirst, hfirst, hfirst, hsecond, hsecond, hsecond, hend⟩

theorem throughout_addTotals (hr : Single r) {delta : ResourceUsage} (hs : TotalOk r ok s)
    (hend : ok (r.read (s.globalStats.add delta))) :
    (addTotals delta).Throughout (TotalOk r ok) s := by
  obtain ⟨hfirst, hsecond⟩ := hr.between hs hend
  exact ⟨hs, hs, hfirst, hfirst, hsecond, hsecond, hend⟩

theorem throughout_refresh_total (hr : Single r) {start : UInt64} (hs : TotalOk r ok s)
    (hend : TotalOk r ok (refreshSlot slot start s)) :
    (refreshSection slot start).Throughout (TotalOk r ok) s := by
  refine Code.throughout_read_bind.mpr ⟨hs, ?_⟩
  unfold refreshSlot at hend
  split
  · rename_i hreused
    rw [if_pos hreused] at hend
    refine Code.throughout_bind.mpr ⟨throughout_subtractEntry hr hs hend, ?_⟩
    exact ⟨hend, hend, hend, hend, hend⟩
  · exact hs

theorem throughout_store_total (hr : Single r) (hs : TotalOk r ok s)
    (hend : TotalOk r ok (storeUsage slot usage s)) :
    (storeSection slot usage).Throughout (TotalOk r ok) s := by
  refine Code.throughout_bind.mpr ⟨keeps_copyStats _ slot s hs, ?_⟩
  refine Code.throughout_bind.mpr ⟨⟨hs, hs, hs, hs⟩, ?_⟩
  rw [run_copyStats, run_writeStats]
  refine Code.throughout_bind.mpr ⟨throughout_addTotals hr hs hend, ?_⟩
  exact ⟨hend, hend, hend⟩

theorem throughout_reclaim_total (hr : Single r) (hs : TotalOk r ok s)
    (hend : TotalOk r ok (clearSlot slot s)) :
    (reclaimSection slot).Throughout (TotalOk r ok) s := by
  refine Code.throughout_bind.mpr ⟨keeps_copyStats _ slot s hs, ?_⟩
  refine Code.throughout_bind.mpr ⟨⟨hs, hs, hs, hs⟩, ?_⟩
  refine Code.throughout_bind.mpr ⟨⟨hs, hs⟩, Code.throughout_bind.mpr ⟨⟨hs, hs⟩, ?_⟩⟩
  refine Code.throughout_bind.mpr ⟨throughout_subtractTotals hr hs hend, ?_⟩
  exact ⟨hend, hend, hend⟩

/-- Each entry is as before, as after, or gone. -/
def Mixed (before after : SharedMemoryData) (entries : Slot → ResourceUsage) : Prop :=
  ∀ slot, entries slot = before.processStats slot ∨ entries slot = after.processStats slot ∨
    entries slot = .zero

/-- The sums over such tables. -/
def SumOfMixed (r : Reading G) (before after : SharedMemoryData) (g : G) : Prop :=
  ∃ entries, Mixed before after entries ∧ g = ∑ slot, r.read (entries slot)

theorem Mixed.refreshSlot (slot : Slot) (start : UInt64) (s after : SharedMemoryData) :
    Mixed s after (refreshSlot slot start s).processStats := by
  intro i
  unfold SharedMemory.refreshSlot
  split
  · by_cases hi : i = slot
    · subst hi
      exact .inr (.inr (Function.update_self ..))
    · exact .inl (Function.update_of_ne hi ..)
  · exact .inl rfl

/-- What a table whose totals are its sums shows. -/
theorem TotalOk.of_mixed {before after m : SharedMemoryData} (hsum : TotalIsSum r m)
    (hmixed : Mixed before after m.processStats) : TotalOk r (SumOfMixed r before after) m :=
  ⟨m.processStats, hmixed, hsum⟩

theorem TotalOk.of_before (hsum : TotalIsSum r s) (after : SharedMemoryData) :
    TotalOk r (SumOfMixed r s after) s :=
  .of_mixed hsum fun _ => .inl rfl

theorem TotalOk.of_after {after : SharedMemoryData} (hsum : TotalIsSum r after)
    (before : SharedMemoryData) : TotalOk r (SumOfMixed r before after) after :=
  .of_mixed hsum fun _ => .inr (.inl rfl)

theorem throughout_update_total (hr : Single r) (hsum : TotalIsSum r s) (hpid : ¬pid ≤ 0)
    (usage : ResourceUsage) (start : UInt64) :
    (updateSection pid usage start).Throughout
      (TotalOk r (SumOfMixed r s (shmUpdateProcessResources pid usage start s).2)) s := by
  have hbefore := TotalOk.of_before hsum (shmUpdateProcessResources pid usage start s).2
  have hafter := TotalOk.of_after (hsum.update pid usage start) s
  have hout := shmUpdateProcessResources_outcome pid usage start s
  generalize shmUpdateProcessResources pid usage start s = out at hbefore hafter hout ⊢
  refine throughout_updateSection hbefore ?_ ?_
  · intro slot hl
    have hmiddle : TotalOk r (SumOfMixed r s out.2) (refreshSlot slot start s) :=
      .of_mixed (hsum.refreshSlot slot start) (.refreshSlot slot start s out.2)
    refine ⟨throughout_refresh_total hr hbefore hmiddle, throughout_store_total hr hmiddle ?_⟩
    cases hout with
    | badPid h => exact absurd h hpid
    | found _ hl' =>
        obtain rfl := Option.some.inj (hl.symm.trans hl')
        exact hafter
    | added _ hl' _ | full _ hl' _ => exact absurd (hl.symm.trans hl') (Option.some_ne_none _)
  · intro slot hl hh
    refine ⟨⟨hbefore, hbefore, hbefore⟩, throughout_store_total hr hbefore ?_⟩
    cases hout with
    | badPid h => exact absurd h hpid
    | found _ hl' => exact absurd (hl'.symm.trans hl) (Option.some_ne_none _)
    | added _ _ hh' =>
        obtain rfl := Option.some.inj (hh.symm.trans hh')
        exact hafter
    | full _ _ hh' => exact absurd (hh.symm.trans hh') (Option.some_ne_none _)

theorem throughout_exit_total (hr : Single r) (hsum : TotalIsSum r s) (slot : Slot) (pid : Int)
    (start : UInt64) : (exitSection slot pid start).Throughout
      (TotalOk r (SumOfMixed r s (exitEntry slot pid start s).2)) s := by
  have hbefore := TotalOk.of_before hsum (exitEntry slot pid start s).2
  refine throughout_exitSection hbefore fun howner hstored hocc => ?_
  have hcleared : (exitEntry slot pid start s).2 = clearSlot slot s := by
    rw [exitEntry, if_pos ⟨howner, hstored, hocc⟩]
  rw [hcleared] at hbefore ⊢
  exact throughout_reclaim_total hr hbefore (.of_after (hsum.clearSlot slot) s)

/-- The scan goes from one table whose totals are its sums to the next, and loses
entries on the way. -/
theorem throughout_sweep_total (hr : Single r) (hsum : TotalIsSum r s) (reclaims : Reclaims)
    (after : SharedMemoryData) :
    (sweepSection reclaims).Throughout (TotalOk r (SumOfMixed r s after)) s := by
  let Left (m : SharedMemoryData) : Prop := TotalIsSum r m ∧ Mixed s after m.processStats
  have hok : ∀ {m}, Left m → TotalOk r (SumOfMixed r s after) m := fun h => .of_mixed h.1 h.2
  have hclear : ∀ (slot : Slot) {m}, Left m → Left (clearSlot slot m) := by
    rintro slot m ⟨hm, hmixed⟩
    refine ⟨hm.clearSlot slot, fun i => ?_⟩
    by_cases hi : i = slot
    · subst hi
      exact .inr (.inr (Function.update_self ..))
    · rw [clearSlot_processStats, Function.update_of_ne hi]
      exact hmixed i
  refine Code.throughout_each hok ?_ _ ⟨hsum, fun _ => .inl rfl⟩
  intro slot m hm
  constructor
  · exact throughout_visitSection (hok hm) fun _ =>
      throughout_reclaim_total hr (hok hm) (hok (hclear slot hm))
  · rw [run_visitSection, visitEntry]
    split
    · exact hclear slot hm
    · exact hm

end Totals

/-- The calls that move totals and entries together. -/
def SegmentCall.KeepsSum (call : SegmentCall) : Prop := ∀ usage, call ≠ .setTotals usage

abbrev SummingCall := { call : SegmentCall // call.KeepsSum }

/-- The segment without `shm_update_global_resources` and the eBPF totals. -/
def summingBody (call : SummingCall) : Body SharedMemoryData SegmentAnswer := segmentBody call.1

theorem summingBody_implements : Implements summingBody fun call => execCall call.1 :=
  ⟨fun hbody => segmentBody_implements.refused hbody, fun hbody =>
    segmentBody_implements.locked hbody⟩

section Results

variable {G : Type} [AddCommGroup G] {r : Reading G} {ι : Type} [DecidableEq ι]

theorem totalIsSum_execCall (hsum : TotalIsSum r s) (call : SummingCall) :
    TotalIsSum r (execCall call.1 s).2 := by
  obtain ⟨call, hcall⟩ := call
  cases call with
  | update pid usage start => exact hsum.update pid usage start
  | setTotals usage => exact absurd rfl (hcall usage)
  | setLimits maxQp maxMr maxMemory => exact hsum
  | exit slot pid start =>
      show TotalIsSum r (exitEntry slot pid start s).2
      unfold exitEntry
      split
      · exact hsum.clearSlot slot
      · exact hsum
  | sweep reclaims =>
      refine foldl_invariant (P := TotalIsSum r) hsum ?_ _
      intro m slot hm
      unfold visitEntry
      split
      · exact hm.clearSlot slot
      · exact hm

theorem throughout_total (hr : Single r) (hsum : TotalIsSum r s) {call : SummingCall}
    {whole : Access SegmentAnswer} (hbody : summingBody call = .locked whole) :
    whole.Throughout (TotalOk r (SumOfMixed r s (execCall call.1 s).2)) s := by
  obtain ⟨call, hcall⟩ := call
  cases call with
  | update pid usage start =>
      rw [summingBody, segmentBody] at hbody
      split at hbody
      · cases hbody
      · rename_i hpid
        obtain rfl := Body.locked.inj hbody
        exact (throughout_update_total hr hsum hpid usage start).returning _
  | setTotals usage => exact absurd rfl (hcall usage)
  | setLimits maxQp maxMr maxMemory =>
      obtain rfl := Body.locked.inj hbody
      have hbefore := TotalOk.of_before hsum (shmSetGlobalLimits maxQp maxMr maxMemory s)
      refine Code.Throughout.returning ?_ _
      exact ⟨hbefore, hbefore, hbefore, hbefore⟩
  | exit slot pid start =>
      obtain rfl := Body.locked.inj hbody
      exact (throughout_exit_total hr hsum slot pid start).returning _
  | sweep reclaims =>
      obtain rfl := Body.locked.inj hbody
      exact (throughout_sweep_total hr hsum reclaims _).returning _

/-- **The writers are atomic.**  However the accesses of the calls are
interleaved, the calls in the order in which they release the lock are a run of
the functions as single steps, with the same answers.  When the lock is free the
segment is as that run left it. -/
theorem table_calls_atomic {labels : List (ι × Event SegmentCall SegmentAnswer)}
    {c : State ι SharedMemoryData SegmentCall SegmentAnswer}
    (hrun : Run (SectionStep segmentBody) (start zeroed) labels c) :
    ∃ s, Run (Atomic execCall) zeroed (completed labels) s ∧
      (c.shared.held = false → c.shared.memory = s) :=
  calls_atomic segmentBody_implements hrun

/-- `after` is the segment with the call under way, or without it. -/
def UnderWay (c : State ι SharedMemoryData SummingCall SegmentAnswer)
    (s after : SharedMemoryData) : Prop :=
  after = s ∨ ∃ i call code, c.control i = .inside call code ∧ after = (execCall call.1 s).2

omit [DecidableEq ι] in
theorem total_seen {c : State ι SharedMemoryData SummingCall SegmentAnswer}
    (hbetween : Between summingBody (fun call => execCall call.1) s c) :
    ∃ after, UnderWay c s after ∧
      ∀ {G : Type} [AddCommGroup G] {r : Reading G}, Single r → TotalIsSum r s →
        SumOfMixed r s after (r.read c.shared.memory.globalStats) := by
  rcases hbetween.seen with hmemory | ⟨i, call, code, whole, hpc, hbody, hpath⟩
  · refine ⟨s, .inl rfl, fun _ hsum => ?_⟩
    rw [hmemory]
    exact TotalOk.of_before hsum s
  · exact ⟨_, .inr ⟨i, call, code, hpc, rfl⟩, fun hr hsum =>
      hpath _ (throughout_total hr hsum hbody)⟩

/-- **Totals without the lock.**  However the accesses of the calls are
interleaved, each total that a reader without the lock finds at any moment is the
sum over a table whose entries are as the completed calls left them, as the call
under way will leave them, or gone. -/
theorem totals_seen_mixed {labels : List (ι × Event SummingCall SegmentAnswer)}
    {c : State ι SharedMemoryData SummingCall SegmentAnswer}
    (hrun : Run (SectionStep summingBody) (start zeroed) labels c) :
    ∃ s after,
      Run (Atomic fun call : SummingCall => execCall call.1) zeroed (completed labels) s ∧
      UnderWay c s after ∧
      (∃ entries, Mixed s after entries ∧ c.shared.memory.globalStats.qpCount.toInt ≡
        ∑ slot, (entries slot).qpCount.toInt [ZMOD 2 ^ 32]) ∧
      (∃ entries, Mixed s after entries ∧ c.shared.memory.globalStats.mrCount.toInt ≡
        ∑ slot, (entries slot).mrCount.toInt [ZMOD 2 ^ 32]) ∧
      ∃ entries, Mixed s after entries ∧ (c.shared.memory.globalStats.memoryUsed.toNat : Int) ≡
        ∑ slot, ((entries slot).memoryUsed.toNat : Int) [ZMOD 2 ^ 64] := by
  obtain ⟨s, hatomic, hbetween⟩ := between_of_run summingBody_implements hrun
  have hsum : ∀ {G : Type} [AddCommGroup G] (r : Reading G), TotalIsSum r s := by
    intro G _ r
    refine hatomic.invariant (P := TotalIsSum r) (TotalIsSum.zeroed r) ?_
    intro s₁ call s₂ h₁ hcall
    have hend : (execCall call.2.1.1 s₁).2 = s₂ := congrArg Prod.snd hcall
    rw [← hend]
    exact totalIsSum_execCall h₁ call.2.1
  obtain ⟨after, hunder, hseen⟩ := total_seen hbetween
  obtain ⟨qps, hqps, hqp⟩ := hseen single_qp (hsum qpReading)
  obtain ⟨mrs, hmrs, hmr⟩ := hseen single_mr (hsum mrReading)
  obtain ⟨memories, hmemories, hmemory⟩ := hseen single_memory (hsum memoryReading)
  exact ⟨s, after, hatomic, hunder, ⟨qps, hqps, modEq_of_class32 hqp⟩,
    ⟨mrs, hmrs, modEq_of_class32 hmr⟩, memories, hmemories, modEq_of_class64 hmemory⟩

end Results

theorem table_calls_atomic_publish :
    ∃ (labels : List (Fin 2 × Event SegmentCall SegmentAnswer)) (answer : SegmentAnswer)
      (s : SharedMemoryData), completed labels = [(0, .update 7 ⟨1, 2, 3⟩ 5, answer)] ∧
        Run (Atomic execCall) zeroed (completed labels) s := by
  obtain ⟨labels, c, hrun, hcompleted, -⟩ := call_completes (i := (0 : Fin 2))
    (segmentBody_update (show ¬(7 : Int) ≤ 0 by decide) ⟨1, 2, 3⟩ 5) (c := start zeroed) rfl rfl
  obtain ⟨s, hatomic, -⟩ := table_calls_atomic hrun
  exact ⟨labels, _, s, hcompleted, hatomic⟩

/-- A process in the middle of publishing: the total of queue pairs counts its
entry, that of memory regions does not yet. -/
theorem totals_seen_mixed_midway :
    ∃ (c : State (Fin 2) SharedMemoryData SummingCall SegmentAnswer) (s after : SharedMemoryData),
      c.shared.held = true ∧ c.shared.memory.globalStats = ⟨1, 0, 0⟩ ∧ UnderWay c s after ∧
        (∃ entries, Mixed s after entries ∧ c.shared.memory.globalStats.qpCount.toInt ≡
          ∑ slot, (entries slot).qpCount.toInt [ZMOD 2 ^ 32]) ∧
        ∃ entries, Mixed s after entries ∧ c.shared.memory.globalStats.mrCount.toInt ≡
          ∑ slot, (entries slot).mrCount.toInt [ZMOD 2 ^ 32] := by
  let call : SummingCall := ⟨.update 7 ⟨1, 2, 3⟩ 5, nofun⟩
  have hbody : summingBody call = .locked (do return .code (← updateSection 7 ⟨1, 2, 3⟩ 5)) :=
    segmentBody_update (by decide) ⟨1, 2, 3⟩ 5
  obtain ⟨labels, -, hrun⟩ := call_goes_on (Q := fun _ => True) (i := (0 : Fin 2)) 2058 hbody
    (c := start zeroed) rfl rfl (fun _ _ _ => trivial) trivial
  obtain ⟨s, after, -, hunder, hqp, hmr, -⟩ :=
    totals_seen_mixed (.mono (fun _ _ _ h => h.1) hrun)
  refine ⟨_, s, after, rfl, ?_, hunder, hqp, hmr⟩
  show ((updateSection 7 ⟨1, 2, 3⟩ 5 >>= fun rc => pure (SegmentAnswer.code rc)).after 2058
    zeroed).2.globalStats = ⟨1, 0, 0⟩
  decide +kernel

end MtRdma.Ports.TableSections
