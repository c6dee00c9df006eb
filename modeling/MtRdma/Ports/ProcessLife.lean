import MtRdma.Verified.Runs
import MtRdma.Ports.CollectorGc
import MtRdma.Ports.SharedMemoryMap

/-!
# Processes, pids and pidfds

The process table and the collector know processes by pid, and the kernel
hands a pid out again once its process is gone.  In the world of this file a
process is a pid together with its real start time.  Next to the state of the
collector the world keeps which processes run and which are dead, which
process published each entry last, and which process each registered pidfd
refers to.

Of the kernel it assumes that running processes have different pids, that
`pidfd_open` opens the process that has the pid, and that an exit event comes
only from a pidfd whose process is dead.
-/

namespace MtRdma.Ports.ProcessLife

open Verified.SlotScan
open Verified.Runs
open SharedMemory
open CollectorGc

/-- A process: its pid and its real start time. -/
structure ProcId where
  pid : Int
  startTime : UInt64
  deriving Repr, DecidableEq

/-- The collector's state, and what is true about the processes. -/
structure LifeWorld where
  gc : GcState
  running : Finset ProcId
  dead : Finset ProcId
  publisher : Slot → Option ProcId
  referent : Slot → Option ProcId

/-- What can happen.  `stat` is the content of `/proc/<pid>/stat`, and `opened`
names the processes behind the pidfds that a scan opens. -/
inductive LifeEvent where
  | start (p : ProcId)
  | publish (p : ProcId) (usage : ResourceUsage) (stat : Option (List Char))
  | die (p : ProcId)
  | exitEvent (slot : Slot)
  | scan (probes : Slot → SlotProbe) (opened : Slot → ProcId)

/-! ## Steps -/

/-- The scan calls `pidfd_open` for this slot: it is occupied, and not
registered or registered for another entry. -/
def Opens (v : SlotView) : Prop :=
  v.pid ≠ 0 ∧ (v.entry.pidfd < 0 ∨ ¬(v.pid = v.entry.pid ∧ v.start = v.entry.startTime))

instance (v : SlotView) : Decidable (Opens v) := inferInstanceAs (Decidable (_ ∧ _))

namespace LifeWorld

def afterStart (w : LifeWorld) (p : ProcId) : LifeWorld :=
  { w with running := insert p w.running }

/-- Process `p` publishes its usage; if the table has an entry for its pid
afterwards, it is the publisher of that entry. -/
def afterPublish (w : LifeWorld) (p : ProcId) (usage : ResourceUsage) (stat : Option (List Char)) :
    LifeWorld :=
  let shm := (shmUpdateProcessResources p.pid usage (shmReadProcStartTime stat) w.gc.shm).2
  { w with
    gc := { w.gc with shm := shm }
    publisher := fun slot => if shm.processPids slot = p.pid then some p else w.publisher slot }

def afterDeath (w : LifeWorld) (p : ProcId) : LifeWorld :=
  { w with running := w.running.erase p, dead := insert p w.dead }

/-- An entry that was emptied has no publisher. -/
def publisherAfter (w : LifeWorld) (gc : GcState) (slot : Slot) : Option ProcId :=
  if gc.shm.processPids slot = 0 then none else w.publisher slot

/-- The collector has made a step to `gc`. -/
def afterCollect (w : LifeWorld) (gc : GcState) (referent : Slot → Option ProcId) : LifeWorld :=
  { w with gc := gc, publisher := w.publisherAfter gc, referent := referent }

def afterExitEvent (w : LifeWorld) (slot : Slot) : LifeWorld :=
  w.afterCollect (gcHandleProcessExit slot w.gc) (Function.update w.referent slot none)

/-- The processes behind the pidfds that are registered after a scan. -/
def referentAfter (w : LifeWorld) (gc : GcState) (opened : Slot → ProcId) (slot : Slot) :
    Option ProcId :=
  if (gc.pidfds slot).pidfd < 0 then none
  else if Opens (slotView slot w.gc) then some (opened slot)
  else w.referent slot

def afterScan (w : LifeWorld) (probes : Slot → SlotProbe) (opened : Slot → ProcId) : LifeWorld :=
  w.afterCollect (gcScanAndRegister probes w.gc)
    (w.referentAfter (gcScanAndRegister probes w.gc) opened)

@[simp] theorem afterCollect_gc (w : LifeWorld) (gc : GcState)
    (referent : Slot → Option ProcId) : (w.afterCollect gc referent).gc = gc := rfl

@[simp] theorem afterCollect_publisher (w : LifeWorld) (gc : GcState)
    (referent : Slot → Option ProcId) :
    (w.afterCollect gc referent).publisher = w.publisherAfter gc := rfl

@[simp] theorem afterCollect_referent (w : LifeWorld) (gc : GcState)
    (referent : Slot → Option ProcId) : (w.afterCollect gc referent).referent = referent := rfl

theorem afterScan_gc (w : LifeWorld) (probes : Slot → SlotProbe) (opened : Slot → ProcId) :
    (w.afterScan probes opened).gc = gcScanAndRegister probes w.gc := by
  rw [afterScan, afterCollect_gc]

end LifeWorld

/-- The process behind a fresh pidfd for the entry of `slot`: it has the pid
of the entry, and if a running process has that pid it is this one. -/
structure OpenedAs (w : LifeWorld) (slot : Slot) (p : ProcId) : Prop where
  pid : p.pid = w.gc.shm.processPids slot
  running : ∀ q ∈ w.running, q.pid = w.gc.shm.processPids slot → p = q

inductive LifeStep : LifeWorld → LifeEvent → LifeWorld → Prop
  | start {w : LifeWorld} {p : ProcId} : p ∉ w.running → p ∉ w.dead → 0 < p.pid →
      (∀ q ∈ w.running, q.pid ≠ p.pid) → LifeStep w (.start p) (w.afterStart p)
  | publish {w : LifeWorld} {p : ProcId} {usage : ResourceUsage} {stat : Option (List Char)} :
      p ∈ w.running → LifeStep w (.publish p usage stat) (w.afterPublish p usage stat)
  | die {w : LifeWorld} {p : ProcId} : p ∈ w.running → LifeStep w (.die p) (w.afterDeath p)
  | exitEvent {w : LifeWorld} {slot : Slot} {p : ProcId} : w.referent slot = some p →
      p ∈ w.dead → LifeStep w (.exitEvent slot) (w.afterExitEvent slot)
  | scan {w : LifeWorld} {probes : Slot → SlotProbe} {opened : Slot → ProcId} :
      (∀ slot, Opens (slotView slot w.gc) → 0 ≤ (probes slot).pidfdOpen →
        OpenedAs w slot (opened slot)) →
      LifeStep w (.scan probes opened) (w.afterScan probes opened)

/-- No process yet, and an empty process table.  The collector's own table may
hold anything, such as the zeros it starts with. -/
structure LifeStart (w : LifeWorld) : Prop where
  shm : w.gc.shm = zeroed
  running : w.running = ∅
  dead : w.dead = ∅
  publisher : ∀ slot, w.publisher slot = none
  referent : ∀ slot, w.referent slot = none

/-! ## What the steps keep, whatever the oracles answer -/

/-- A scan leaves an entry as it is or empties it; it empties only what fails
the health check. -/
theorem scan_entry (probes : Slot → SlotProbe) (slot : Slot) (g : GcState) :
    ((gcScanAndRegister probes g).shm.processPids slot = g.shm.processPids slot ∧
        (gcScanAndRegister probes g).shm.processStartTimes slot =
          g.shm.processStartTimes slot) ∨
      ((gcScanAndRegister probes g).shm.processPids slot = 0 ∧
        gcIsProcessReallyAlive (probes slot).status = false) := by
  have hpid := congrArg SlotView.pid (gcScanAndRegister_slot probes slot g)
  have hstart := congrArg SlotView.start (gcScanAndRegister_slot probes slot g)
  rw [slotView_pid] at hpid
  rw [slotView_start] at hstart
  rw [hpid, hstart]
  unfold SlotView.scan
  split
  · split <;> exact .inl ⟨rfl, rfl⟩
  · split
    · split
      · rename_i hcond
        exact .inr ⟨rfl, Bool.eq_false_of_not_eq_true hcond.2⟩
      · exact .inl ⟨rfl, rfl⟩
    · split
      · exact .inl ⟨rfl, rfl⟩
      · split
        · rename_i hdead
          exact .inr ⟨rfl, Bool.eq_false_of_not_eq_true hdead⟩
        · exact .inl ⟨rfl, rfl⟩

/-- The pidfd entry of a slot after a scan, if there is one: a new one where
the scan opened a pidfd, the old one elsewhere. -/
theorem scan_pidfd (probes : Slot → SlotProbe) (slot : Slot) (g : GcState)
    (h : ¬((gcScanAndRegister probes g).pidfds slot).pidfd < 0) :
    (Opens (slotView slot g) → 0 ≤ (probes slot).pidfdOpen ∧
        (gcScanAndRegister probes g).pidfds slot =
          ⟨(probes slot).pidfdOpen, g.shm.processPids slot, g.shm.processStartTimes slot⟩) ∧
      (¬Opens (slotView slot g) → (gcScanAndRegister probes g).pidfds slot = g.pidfds slot) := by
  have hentry := congrArg SlotView.entry (gcScanAndRegister_slot probes slot g)
  rw [slotView_entry] at hentry
  rw [hentry] at h ⊢
  have hunreg : (PidfdEntry.unregistered).pidfd < 0 := by decide
  -- a registration that leaves a descriptor behind went through
  have hreg : ∀ pid start, ¬(registered pid start (probes slot)).pidfd < 0 →
      0 ≤ (probes slot).pidfdOpen ∧
        registered pid start (probes slot) = ⟨(probes slot).pidfdOpen, pid, start⟩ := by
    intro pid start hok
    unfold registered at hok ⊢
    by_cases hfail : (probes slot).pidfdOpen < 0 ∨ (probes slot).epollAdd = false
    · rw [if_pos hfail] at hok
      exact absurd hunreg hok
    · rw [if_neg hfail]
      have hfd := (not_or.mp hfail).1
      exact ⟨by omega, rfl⟩
  rw [show g.pidfds slot = (slotView slot g).entry from rfl,
    show g.shm.processPids slot = (slotView slot g).pid from rfl,
    show g.shm.processStartTimes slot = (slotView slot g).start from rfl]
  generalize slotView slot g = v at h ⊢
  unfold SlotView.scan at h ⊢
  unfold Opens
  by_cases hpid : v.pid = 0
  · rw [if_pos hpid] at h ⊢
    refine ⟨fun hopen => absurd hpid hopen.1, ?_⟩
    intro _
    split at h
    · exact absurd hunreg h
    · rename_i hneg
      rw [if_neg hneg]
  · rw [if_neg hpid] at h ⊢
    by_cases hneg : v.entry.pidfd < 0
    · rw [if_pos hneg] at h ⊢
      have hopen : Opens v := ⟨hpid, .inl hneg⟩
      have hok : ¬(registered v.pid v.start (probes slot)).pidfd < 0 := by
        split at h <;> exact h
      refine ⟨fun _ => ⟨(hreg _ _ hok).1, ?_⟩, fun hno => absurd hopen hno⟩
      rw [if_neg fun hcond => hok hcond.1]
      exact (hreg _ _ hok).2
    · rw [if_neg hneg] at h ⊢
      by_cases hsame : v.pid = v.entry.pid ∧ v.start = v.entry.startTime
      · rw [if_neg (not_not.mpr hsame)] at h ⊢
        refine ⟨fun hopen => absurd hopen.2 (not_or.mpr ⟨hneg, not_not.mpr hsame⟩), ?_⟩
        intro _
        split at h
        · exact absurd hunreg h
        · rename_i halive
          rw [if_neg halive]
      · rw [if_pos hsame] at h ⊢
        have hopen : Opens v := ⟨hpid, .inr hsame⟩
        exact ⟨fun _ => hreg _ _ h, fun hno => absurd hopen hno⟩

/-- A scan without its loop: it leads to some collector state, of which every
slot is known. -/
theorem afterScan_collect (w : LifeWorld) (probes : Slot → SlotProbe) (opened : Slot → ProcId) :
    ∃ gc, w.afterScan probes opened = w.afterCollect gc (w.referentAfter gc opened) ∧
      (∀ slot, slotView slot gc = (slotView slot w.gc).scan (probes slot)) ∧
      gc.tenant = w.gc.tenant :=
  ⟨gcScanAndRegister probes w.gc, rfl, fun slot => gcScanAndRegister_slot probes slot w.gc,
    gcScanAndRegister_tenant probes w.gc⟩

/-- An exit event leaves every other slot alone. -/
theorem exitEvent_entry {slot i : Slot} (h : i ≠ slot) (g : GcState) :
    (gcHandleProcessExit slot g).shm.processPids i = g.shm.processPids i ∧
      (gcHandleProcessExit slot g).shm.processStartTimes i = g.shm.processStartTimes i ∧
      (gcHandleProcessExit slot g).pidfds i = g.pidfds i := by
  unfold gcHandleProcessExit
  split <;> simp [gcDropPidfd, reclaimExited, clearSlot, h]

end MtRdma.Ports.ProcessLife
