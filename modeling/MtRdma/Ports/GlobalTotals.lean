import Mathlib.Algebra.BigOperators.Ring.Finset
import MtRdma.Verified.MachineInt
import MtRdma.Verified.Runs
import MtRdma.Ports.SharedMemoryMap
import MtRdma.Ports.CollectorGc

/-!
# The global totals are the sum of the process table

`global_stats` is never computed from the table: every function that writes an
entry moves the totals by hand.  All of them are built from the blocks
`refreshSlot`, `claimSlot`, `storeUsage` and `clearSlot`, so it is enough that
each block moves totals and table by the same amount.

The counters wrap.  A `Reading` maps a usage record to a group in which the
wrapping arithmetic of one field is exact; the invariant is proved once for an
arbitrary reading and used for the three fields.
-/

namespace MtRdma.Ports.GlobalTotals

open Verified.SlotScan
open Verified.Runs
open Verified.MachineInt
open SharedMemory
open SharedMemoryTenant (TenantSharedMemory)
open CollectorGc

variable {g : GcState}

/-! ## Readings of a usage record -/

/-- A quantity of a usage record that respects the field-by-field
arithmetic. -/
structure Reading (G : Type) [AddCommGroup G] where
  read : ResourceUsage → G
  read_zero : read .zero = 0
  read_add : ∀ a b, read (a.add b) = read a + read b
  read_sub : ∀ a b, read (a.sub b) = read a - read b

/-- The QP count modulo `2 ^ 32`. -/
def qpReading : Reading (ZMod (2 ^ 32)) where
  read u := class32 u.qpCount
  read_zero := class32_zero
  read_add a b := class32_add a.qpCount b.qpCount
  read_sub a b := class32_sub a.qpCount b.qpCount

/-- The MR count modulo `2 ^ 32`. -/
def mrReading : Reading (ZMod (2 ^ 32)) where
  read u := class32 u.mrCount
  read_zero := class32_zero
  read_add a b := class32_add a.mrCount b.mrCount
  read_sub a b := class32_sub a.mrCount b.mrCount

/-- The memory modulo `2 ^ 64`. -/
def memoryReading : Reading (ZMod (2 ^ 64)) where
  read u := class64 u.memoryUsed
  read_zero := class64_zero
  read_add a b := class64_add a.memoryUsed b.memoryUsed
  read_sub a b := class64_sub a.memoryUsed b.memoryUsed

/-! ## Each block moves totals and table together -/

section Blocks

variable {G : Type} [AddCommGroup G]

/-- The total of a reading is the sum over all slots. -/
def TotalIsSum (r : Reading G) (s : SharedMemoryData) : Prop :=
  r.read s.globalStats = ∑ i, r.read (s.processStats i)

variable {r : Reading G} {s : SharedMemoryData}

theorem TotalIsSum.zeroed (r : Reading G) : TotalIsSum r zeroed := by
  show r.read .zero = ∑ _i : Slot, r.read .zero
  rw [r.read_zero, Finset.sum_const_zero]

/-- Taking the usage of one slot out of the totals while zeroing that slot. -/
theorem TotalIsSum.subtract_slot (h : TotalIsSum r s) (slot : Slot)
    {s' : SharedMemoryData} (hglobal : s'.globalStats = s.globalStats.sub (s.processStats slot))
    (hstats : s'.processStats = Function.update s.processStats slot .zero) :
    TotalIsSum r s' := by
  unfold TotalIsSum at h ⊢
  rw [hglobal, hstats, r.read_sub, h, sum_update, r.read_zero, add_zero]

theorem TotalIsSum.refreshSlot (h : TotalIsSum r s) (slot : Slot) (start : UInt64) :
    TotalIsSum r (refreshSlot slot start s) := by
  unfold SharedMemory.refreshSlot
  split
  · exact h.subtract_slot slot rfl rfl
  · exact h

theorem TotalIsSum.claimSlot (h : TotalIsSum r s) (slot : Slot) (pid : Int)
    (start : UInt64) : TotalIsSum r (claimSlot slot pid start s) := h

/-- The difference added to the totals is the difference made in the slot. -/
theorem TotalIsSum.storeUsage (h : TotalIsSum r s) (slot : Slot) (usage : ResourceUsage) :
    TotalIsSum r (storeUsage slot usage s) := by
  unfold TotalIsSum at h ⊢
  have hglobal : (SharedMemory.storeUsage slot usage s).globalStats =
      s.globalStats.add (usage.sub (s.processStats slot)) := rfl
  rw [hglobal, storeUsage_processStats, r.read_add, r.read_sub, h, sum_update]
  abel

theorem TotalIsSum.clearSlot (h : TotalIsSum r s) (slot : Slot) :
    TotalIsSum r (clearSlot slot s) :=
  h.subtract_slot slot rfl rfl

theorem TotalIsSum.update (h : TotalIsSum r s) (pid : Int) (usage : ResourceUsage)
    (start : UInt64) : TotalIsSum r (shmUpdateProcessResources pid usage start s).2 := by
  have hout := shmUpdateProcessResources_outcome pid usage start s
  generalize shmUpdateProcessResources pid usage start s = out at hout
  cases hout with
  | badPid _ => exact h
  | @found slot _ _ => exact (h.refreshSlot slot start).storeUsage slot usage
  | @added slot _ _ _ => exact (h.claimSlot slot pid start).storeUsage slot usage
  | full _ _ _ => exact h

end Blocks

/-! ## Runs of the table and the collector -/

/-- The calls that write the process table, with the answers they get. -/
inductive TableCall where
  | update (pid : Int) (usage : ResourceUsage) (start : UInt64)
  | clearEntry (slot : Int)
  | setLimits (maxQp maxMr : UInt32) (maxMemory : UInt64)
  | processExit (slot : Slot)
  | scan (probes : Slot → SlotProbe)

/-- One call, as one critical section. -/
def tableCall (g : GcState) : TableCall → GcState
  | .update pid usage start =>
      { g with shm := (shmUpdateProcessResources pid usage start g.shm).2 }
  | .clearEntry slot => { g with shm := (shmClearProcessEntry slot g.shm).2 }
  | .setLimits maxQp maxMr maxMemory =>
      { g with shm := shmSetGlobalLimits maxQp maxMr maxMemory g.shm }
  | .processExit slot => gcHandleProcessExit slot g
  | .scan probes => gcScanAndRegister probes g

/-- A property of the table that survives the update, the emptying of a slot
and new limits survives every call. -/
theorem tableCall_invariant {P : SharedMemoryData → Prop}
    (hupdate : ∀ s pid usage start, P s → P (shmUpdateProcessResources pid usage start s).2)
    (hclear : ∀ s slot, P s → P (clearSlot slot s))
    (hlimits : ∀ s maxQp maxMr maxMemory, P s → P (shmSetGlobalLimits maxQp maxMr maxMemory s))
    (h : P g.shm) (c : TableCall) : P (tableCall g c).shm := by
  cases c with
  | update pid usage start => exact hupdate g.shm pid usage start h
  | clearEntry slot =>
      show P (shmClearProcessEntry slot g.shm).2
      rcases shmClearProcessEntry_cases slot g.shm with hc | ⟨i, _, _, hc⟩
      · rw [hc]
        exact h
      · rw [hc]
        exact hclear g.shm i h
  | setLimits maxQp maxMr maxMemory => exact hlimits g.shm maxQp maxMr maxMemory h
  | processExit slot => exact gcHandleProcessExit_invariant hclear slot h
  | scan probes => exact gcScanAndRegister_invariant hclear probes h

theorem TableWf.call (h : TableWf g.shm) (c : TableCall) :
    TableWf (tableCall g c).shm := by
  refine tableCall_invariant ?_ ?_ ?_ h c
  · intro s pid usage start hs
    exact hs.update pid usage start
  · intro s slot hs
    exact hs.clearSlot slot
  · intro s maxQp maxMr maxMemory hs
    exact ⟨hs.distinct, hs.pid_nonneg, hs.hole_stats, hs.hole_start⟩

theorem TotalIsSum.call {G : Type} [AddCommGroup G] {r : Reading G} (h : TotalIsSum r g.shm)
    (c : TableCall) : TotalIsSum r (tableCall g c).shm := by
  refine tableCall_invariant ?_ ?_ ?_ h c
  · intro s pid usage start hs
    exact hs.update pid usage start
  · intro s slot hs
    exact hs.clearSlot slot
  · intro s maxQp maxMr maxMemory hs
    exact hs

/-- Any sequence of calls, the collector's own table and the tenant store being
in any state at the start. -/
def tableCalls (g : GcState) (calls : List TableCall) : GcState :=
  calls.foldl tableCall g

theorem tableCalls_wf (h : TableWf g.shm) (calls : List TableCall) :
    TableWf (tableCalls g calls).shm :=
  foldl_invariant (P := fun g : GcState => TableWf g.shm) h (fun _ c hg => TableWf.call hg c) calls

theorem tableCalls_total {G : Type} [AddCommGroup G] (r : Reading G) (h : TotalIsSum r g.shm)
    (calls : List TableCall) :
    TotalIsSum r (tableCalls g calls).shm :=
  foldl_invariant (P := fun g : GcState => TotalIsSum r g.shm) h (fun _ c hg => hg.call c) calls

/-! ## The invariant in integers -/

theorem modEq_of_class32 {x : Int32} {f : Slot → Int32}
    (h : class32 x = ∑ i, class32 (f i)) : x.toInt ≡ ∑ i, (f i).toInt [ZMOD 2 ^ 32] := by
  have hcast : ((x.toInt : Int) : ZMod (2 ^ 32)) = ((∑ i, (f i).toInt : Int) : ZMod (2 ^ 32)) := by
    rw [Int.cast_sum]
    exact h
  exact (ZMod.intCast_eq_intCast_iff _ _ _).mp hcast

theorem modEq_of_class64 {x : UInt64} {f : Slot → UInt64}
    (h : class64 x = ∑ i, class64 (f i)) :
    (x.toNat : Int) ≡ ∑ i, ((f i).toNat : Int) [ZMOD 2 ^ 64] := by
  have hcast : ((x.toNat : Int) : ZMod (2 ^ 64)) =
      ((∑ i, ((f i).toNat : Int) : Int) : ZMod (2 ^ 64)) := by
    rw [Int.cast_sum]
    exact h
  exact (ZMod.intCast_eq_intCast_iff _ _ _).mp hcast

/-- **The totals are the sum of the table.**  After any calls on a zeroed
segment the three totals agree with the sums over all slots modulo the width
of the field, holes are clean, and no pid occupies two slots. -/
theorem globalStats_modEq_sum (tenant : TenantSharedMemory) (pidfds : Slot → PidfdEntry)
    (fdCalls : List FdCall) (calls : List TableCall) :
    let s := (tableCalls ⟨zeroed, tenant, pidfds, fdCalls⟩ calls).shm
    s.globalStats.qpCount.toInt ≡ ∑ i, (s.processStats i).qpCount.toInt [ZMOD 2 ^ 32] ∧
    s.globalStats.mrCount.toInt ≡ ∑ i, (s.processStats i).mrCount.toInt [ZMOD 2 ^ 32] ∧
    (s.globalStats.memoryUsed.toNat : Int) ≡
      ∑ i, ((s.processStats i).memoryUsed.toNat : Int) [ZMOD 2 ^ 64] ∧
    (∀ i, s.processPids i = 0 →
      s.processStats i = .zero ∧ s.processStartTimes i = 0) ∧
    (∀ i j, s.processPids i = s.processPids j → s.processPids i ≠ 0 → i = j) := by
  intro s
  have hwf : TableWf s := tableCalls_wf TableWf.zeroed calls
  have hqp : TotalIsSum qpReading s := tableCalls_total qpReading (TotalIsSum.zeroed _) calls
  have hmr : TotalIsSum mrReading s := tableCalls_total mrReading (TotalIsSum.zeroed _) calls
  have hmem : TotalIsSum memoryReading s :=
    tableCalls_total memoryReading (TotalIsSum.zeroed _) calls
  refine ⟨modEq_of_class32 hqp, modEq_of_class32 hmr, modEq_of_class64 hmem, ?_, hwf.distinct⟩
  intro i hi
  exact ⟨hwf.hole_stats i hi, hwf.hole_start i hi⟩

end MtRdma.Ports.GlobalTotals
