import MtRdma.Verified.SlotScan
import MtRdma.Verified.CText

/-!
# The process table (`shm/shared_memory.c`)

The segment `/rdma_intercept_shm_v2` holds one usage record per process in an
unordered array with holes, next to running global totals.  All functions
below act on the mapped segment and model one critical section each; the lock
word is therefore only touched by `shmInit`.

Counters keep their C width, so every `+=` and `-=` of the source is the
wrapping operation of the field's type.  `last_update_time` is written but
never read and is left out.
-/

namespace MtRdma.Ports.SharedMemory

open Verified.SlotScan
open Verified.CText

/-- `MAX_PROCESSES`.  Irreducible, so that no proof ever unrolls a loop over
the slots. -/
@[irreducible] def maxProcesses : Nat := 1024

theorem maxProcesses_eq : maxProcesses = 1024 := by
  unfold maxProcesses
  rfl

/-- A 32-bit word can count the slots. -/
theorem maxProcesses_lt : maxProcesses < 2 ^ 32 := by
  rw [maxProcesses_eq]
  decide

instance : NeZero maxProcesses := ⟨by rw [maxProcesses_eq]; decide⟩

/-- Index of an entry of the process table. -/
abbrev Slot := Fin maxProcesses

/-- `resource_usage_t`. -/
structure ResourceUsage where
  qpCount : Int32
  mrCount : Int32
  memoryUsed : UInt64
  deriving Repr, DecidableEq

namespace ResourceUsage

/-- The record left by `memset(…, 0, sizeof(resource_usage_t))`. -/
def zero : ResourceUsage := ⟨0, 0, 0⟩

/-- Field by field `+`, in the field's own width. -/
def add (a b : ResourceUsage) : ResourceUsage :=
  ⟨a.qpCount + b.qpCount, a.mrCount + b.mrCount, a.memoryUsed + b.memoryUsed⟩

/-- Field by field `-`, in the field's own width. -/
def sub (a b : ResourceUsage) : ResourceUsage :=
  ⟨a.qpCount - b.qpCount, a.mrCount - b.mrCount, a.memoryUsed - b.memoryUsed⟩

end ResourceUsage

/-- `shared_memory_data_t`. -/
structure SharedMemoryData where
  globalStats : ResourceUsage
  processStats : Slot → ResourceUsage
  processPids : Slot → Int
  processStartTimes : Slot → UInt64
  maxGlobalQp : UInt32
  maxGlobalMr : UInt32
  maxGlobalMemory : UInt64
  shmLock : Int32
  version : UInt64

/-- A freshly truncated segment. -/
def zeroed : SharedMemoryData where
  globalStats := .zero
  processStats := fun _ => .zero
  processPids := fun _ => 0
  processStartTimes := fun _ => 0
  maxGlobalQp := 0
  maxGlobalMr := 0
  maxGlobalMemory := 0
  shmLock := 0
  version := 0

/-- `shm_init` on a segment that could be opened and mapped: all three totals
being zero is taken to mean that the segment is new. -/
def shmInit (s : SharedMemoryData) : SharedMemoryData :=
  if s.globalStats.qpCount = 0 ∧ s.globalStats.mrCount = 0 ∧
      s.globalStats.memoryUsed = 0 then
    { globalStats := .zero
      processStats := fun _ => .zero
      processPids := fun _ => 0
      processStartTimes := fun _ => 0
      maxGlobalQp := 1000
      maxGlobalMr := 1000
      maxGlobalMemory := 1024 * 1024 * 1024
      shmLock := 0
      version := 1 }
  else s

/-- `shm_get_global_resources`. -/
def shmGetGlobalResources (s : SharedMemoryData) : ResourceUsage :=
  s.globalStats

/-- `shm_get_process_resources`: `none` is the return value `-1`. -/
def shmGetProcessResources (pid : Int) (s : SharedMemoryData) :
    Option ResourceUsage :=
  if pid ≤ 0 then none
  else
    match lookup s.processPids pid with
    | some slot => some (s.processStats slot)
    | none => some .zero

/-- `shm_update_global_resources`. -/
def shmUpdateGlobalResources (usage : ResourceUsage) (s : SharedMemoryData) :
    SharedMemoryData :=
  { s with globalStats := usage, version := s.version + 1 }

/-! ## Updating one process -/

/-- The PID-reuse test on an existing entry.  Both start times have to be
known for a mismatch to count. -/
def pidReused (start stored : UInt64) : Bool :=
  start != 0 && stored != 0 && start != stored

/-- An existing entry is taken over by a new process with the same pid: the
old usage leaves the totals and the new start time is recorded. -/
def refreshSlot (slot : Slot) (start : UInt64) (s : SharedMemoryData) :
    SharedMemoryData :=
  if pidReused start (s.processStartTimes slot) then
    { s with
      globalStats := s.globalStats.sub (s.processStats slot)
      processStats := Function.update s.processStats slot .zero
      processStartTimes := Function.update s.processStartTimes slot start }
  else s

/-- A hole becomes the entry of `pid`. -/
def claimSlot (slot : Slot) (pid : Int) (start : UInt64) (s : SharedMemoryData) :
    SharedMemoryData :=
  { s with
    processPids := Function.update s.processPids slot pid
    processStartTimes := Function.update s.processStartTimes slot start }

/-- The common tail: store the usage and move the totals by the difference. -/
def storeUsage (slot : Slot) (usage : ResourceUsage) (s : SharedMemoryData) :
    SharedMemoryData :=
  { s with
    processStats := Function.update s.processStats slot usage
    globalStats := s.globalStats.add (usage.sub (s.processStats slot))
    version := s.version + 1 }

/-- `shm_update_process_resources`; `start` is what `shm_read_proc_start_time`
answers for `pid` during the call. -/
def shmUpdateProcessResources (pid : Int) (usage : ResourceUsage) (start : UInt64)
    (s : SharedMemoryData) : Int × SharedMemoryData :=
  if pid ≤ 0 then (-1, s)
  else
    match scan s.processPids 0 pid with
    | (some slot, _) => (0, storeUsage slot usage (refreshSlot slot start s))
    | (none, some slot) => (0, storeUsage slot usage (claimSlot slot pid start s))
    | (none, none) => (-1, s)

/-- `shm_read_proc_start_time` on the content of `/proc/<pid>/stat` (`none` if
it cannot be opened).  The first token after the closing parenthesis is the
state letter, nineteen more are skipped, and the one after those is returned. -/
def shmReadProcStartTime (stat : Option (List Char)) : UInt64 :=
  match stat with
  | none => 0
  | some content =>
      match fgetsAll 1024 content with
      | [] => 0
      | buf :: _ =>
          match strrchr ')' buf with
          | none => 0
          | some p =>
              match (strtok ' ' (p.drop 2)).drop 20 with
              | [] => 0
              | tok :: _ => strtoul tok

/-! ## Clearing one process -/

/-- Remove the entry of a slot and take its usage out of the totals.  The
clearing function and all reclamation paths of the collector perform exactly
this block. -/
def clearSlot (slot : Slot) (s : SharedMemoryData) : SharedMemoryData :=
  { s with
    globalStats := s.globalStats.sub (s.processStats slot)
    processStats := Function.update s.processStats slot .zero
    processPids := Function.update s.processPids slot 0
    processStartTimes := Function.update s.processStartTimes slot 0
    version := s.version + 1 }

/-- The bounds check on a slot number. -/
def slotOf? (slot : Int) : Option Slot :=
  if h : 0 ≤ slot ∧ slot < maxProcesses then
    some ⟨slot.toNat, by omega⟩
  else none

/-- `shm_clear_process_entry`: the usage handed to the out-parameters, or
`none` for the return value `-1`. -/
def shmClearProcessEntry (slot : Int) (s : SharedMemoryData) :
    Option ResourceUsage × SharedMemoryData :=
  match slotOf? slot with
  | none => (none, s)
  | some i =>
      if s.processPids i = 0 then (none, s)
      else (some (s.processStats i), clearSlot i s)

/-- `shm_set_global_limits`. -/
def shmSetGlobalLimits (maxQp maxMr : UInt32) (maxMemory : UInt64)
    (s : SharedMemoryData) : SharedMemoryData :=
  { s with maxGlobalQp := maxQp, maxGlobalMr := maxMr, maxGlobalMemory := maxMemory }

/-! ## What one update can do -/

/-- The outcomes of `shm_update_process_resources`, with the slot search
reduced to plain lookups. -/
inductive UpdateOutcome (pid : Int) (usage : ResourceUsage) (start : UInt64)
    (s : SharedMemoryData) : Int × SharedMemoryData → Prop
  | badPid : pid ≤ 0 → UpdateOutcome pid usage start s (-1, s)
  | found {slot : Slot} : 0 < pid → lookup s.processPids pid = some slot →
      UpdateOutcome pid usage start s
        (0, storeUsage slot usage (refreshSlot slot start s))
  | added {slot : Slot} : 0 < pid → lookup s.processPids pid = none →
      lookup s.processPids 0 = some slot →
      UpdateOutcome pid usage start s
        (0, storeUsage slot usage (claimSlot slot pid start s))
  | full : 0 < pid → lookup s.processPids pid = none →
      lookup s.processPids 0 = none → UpdateOutcome pid usage start s (-1, s)

theorem shmUpdateProcessResources_outcome (pid : Int) (usage : ResourceUsage)
    (start : UInt64) (s : SharedMemoryData) :
    UpdateOutcome pid usage start s (shmUpdateProcessResources pid usage start s) := by
  unfold shmUpdateProcessResources
  by_cases hpid : pid ≤ 0
  · rw [if_pos hpid]
    exact .badPid hpid
  · rw [if_neg hpid]
    have hpos : 0 < pid := by omega
    cases hl : lookup s.processPids pid with
    | some slot =>
        have hfst := scan_fst s.processPids 0 pid
        rw [hl] at hfst
        generalize scan s.processPids 0 pid = r at hfst ⊢
        obtain ⟨found, hole⟩ := r
        obtain rfl : found = some slot := hfst
        exact .found hpos hl
    | none =>
        rw [scan_eq_lookup hl]
        cases hh : lookup s.processPids 0 with
        | some slot => exact .added hpos hl hh
        | none => exact .full hpos hl hh

/-- The first update of a fresh segment takes the first slot. -/
theorem update_zeroed {pid : Int} (hpid : 0 < pid) (usage : ResourceUsage) (start : UInt64) :
    shmUpdateProcessResources pid usage start zeroed =
      (0, storeUsage 0 usage (claimSlot 0 pid start zeroed)) := by
  have habs : lookup zeroed.processPids pid = none :=
    (lookup_eq_none_iff _ _).mpr fun _ => hpid.ne
  have hhole : lookup zeroed.processPids 0 = some 0 := lookup_first rfl
  unfold shmUpdateProcessResources
  rw [if_neg (by omega), scan_eq_lookup habs, hhole]

/-- A clearing call either rejects its argument or clears an occupied slot. -/
theorem shmClearProcessEntry_cases (slot : Int) (s : SharedMemoryData) :
    shmClearProcessEntry slot s = (none, s) ∨
      ∃ i, slotOf? slot = some i ∧ s.processPids i ≠ 0 ∧
        shmClearProcessEntry slot s = (some (s.processStats i), clearSlot i s) := by
  unfold shmClearProcessEntry
  cases hi : slotOf? slot with
  | none => exact .inl rfl
  | some i =>
      by_cases hp : s.processPids i = 0
      · exact .inl (by simp [hp])
      · exact .inr ⟨i, rfl, hp, by simp [hp]⟩

/-! ## Fields after each block -/

@[simp] theorem refreshSlot_processPids (slot : Slot) (start : UInt64)
    (s : SharedMemoryData) : (refreshSlot slot start s).processPids = s.processPids := by
  unfold refreshSlot
  split <;> rfl

/-- Whether or not the pid was reused, only the usage of this slot can differ
afterwards. -/
theorem refreshSlot_processStats_ne (slot : Slot) (start : UInt64)
    (s : SharedMemoryData) {i : Slot} (h : i ≠ slot) :
    (refreshSlot slot start s).processStats i = s.processStats i := by
  unfold refreshSlot
  split
  · exact Function.update_of_ne h _ _
  · rfl

@[simp] theorem claimSlot_processPids (slot : Slot) (pid : Int) (start : UInt64)
    (s : SharedMemoryData) : (claimSlot slot pid start s).processPids =
      Function.update s.processPids slot pid := rfl

@[simp] theorem claimSlot_processStats (slot : Slot) (pid : Int) (start : UInt64)
    (s : SharedMemoryData) :
    (claimSlot slot pid start s).processStats = s.processStats := rfl

@[simp] theorem storeUsage_processPids (slot : Slot) (usage : ResourceUsage)
    (s : SharedMemoryData) : (storeUsage slot usage s).processPids = s.processPids := rfl

@[simp] theorem storeUsage_processStats (slot : Slot) (usage : ResourceUsage)
    (s : SharedMemoryData) : (storeUsage slot usage s).processStats =
      Function.update s.processStats slot usage := rfl

@[simp] theorem clearSlot_processPids (slot : Slot) (s : SharedMemoryData) :
    (clearSlot slot s).processPids = Function.update s.processPids slot 0 := rfl

@[simp] theorem clearSlot_processStats (slot : Slot) (s : SharedMemoryData) :
    (clearSlot slot s).processStats = Function.update s.processStats slot .zero := rfl

end MtRdma.Ports.SharedMemory
