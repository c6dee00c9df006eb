import MtRdma.Ports.PerformanceOptimizer

/-!
# Batching is equivalent to direct writes

One thread calls `perf_optimizer_batch_update_resource` and
`perf_optimizer_flush_batch_buffer` in any order, with batching on.  The
buffer keeps one update per pid, in the order in which the pids came in, and
empties itself when a 257th pid arrives; the process table has a capacity of
its own and totals that follow every write.

The table with the buffer written out is at every moment the table that direct
writes would have produced (`Matches`), the version number apart.  Whether a
pid is refused is decided by its first update, in both.
-/

namespace MtRdma.Ports.PerformanceOptimizer

open Verified.SlotScan
open Verified.WriteBuffer
open SharedMemory

/-- What the thread calls. -/
inductive BatchCall where
  | update (now : UInt64) (pid : Int) (usage : ResourceUsage)
  | flush

namespace BatchCall

variable (start : Int → UInt64)

/-- The call, with the optimizer in front of the table. -/
def exec (x : PerfOptimizer × SharedMemoryData) : BatchCall → PerfOptimizer × SharedMemoryData
  | .update now pid usage => (perfOptimizerBatchUpdateResource start now pid usage x.1 x.2).2
  | .flush => perfOptimizerFlushBatchBuffer start x.1 x.2

/-- The call as a direct write. -/
def direct (s : SharedMemoryData) : BatchCall → SharedMemoryData
  | .update _ pid usage => (shmUpdateProcessResources pid usage (start pid) s).2
  | .flush => s

end BatchCall

section Direct

variable (start : Int → UInt64)

def batched (calls : List BatchCall) (x : PerfOptimizer × SharedMemoryData) :
    PerfOptimizer × SharedMemoryData :=
  calls.foldl (BatchCall.exec start) x

def directWrites (calls : List BatchCall) (s : SharedMemoryData) : SharedMemoryData :=
  calls.foldl (BatchCall.direct start) s

/-- The calls update the pid. -/
def Requested (calls : List BatchCall) (pid : Int) : Prop :=
  ∃ now usage, BatchCall.update now pid usage ∈ calls

/-- One of the direct writes for the pid returns `-1`. -/
def Refused (calls : List BatchCall) (s : SharedMemoryData) (pid : Int) : Prop :=
  ∃ before now usage after, calls = before ++ .update now pid usage :: after ∧
    (shmUpdateProcessResources pid usage (start pid) (directWrites start before s)).1 = -1

/-! ## Which pids are refused -/

variable {start} {calls : List BatchCall} {pid : Int} {s : SharedMemoryData}

theorem update_refused_iff (usage : ResourceUsage) :
    (shmUpdateProcessResources pid usage (start pid) s).1 = -1 ↔ slotFor pid s = none := by
  rw [shmUpdateProcessResources_eq]
  cases slotFor pid s <;> simp

/-- What the table has decided about a pid is not changed by an update. -/
theorem slotFor_eq_none_update (h : Decided pid s) (q : Int) (usage : ResourceUsage) :
    slotFor pid (updateTable start q usage s) = none ↔ slotFor pid s = none := by
  by_cases hne : pid = q
  · subst hne
    cases hslot : slotFor pid s with
    | none => rw [updateTable_refused hslot, hslot]
    | some slot => rw [slotFor_update_self hslot]
  · rw [slotFor_update_of_ne h hne]

theorem decided_directWrites (h : Decided pid s) :
    Decided pid (directWrites start calls s) ∧
      (slotFor pid (directWrites start calls s) = none ↔ slotFor pid s = none) := by
  induction calls generalizing s with
  | nil => exact ⟨h, Iff.rfl⟩
  | cons call rest ih =>
      cases call with
      | flush => exact ih h
      | update now q usage =>
          have hafter : Decided pid (updateTable start q usage s) := h.update
          obtain ⟨hdecided, hslot⟩ := ih hafter
          exact ⟨hdecided, hslot.trans (slotFor_eq_none_update h q usage)⟩

/-- Whatever comes before and after an update, it is refused if and only if
its pid has no entry in the end. -/
theorem refused_at_iff (start : Int → UInt64) (s : SharedMemoryData)
    {before after : List BatchCall} {now : UInt64} {usage : ResourceUsage}
    (hcalls : calls = before ++ .update now pid usage :: after) :
    Decided pid (directWrites start calls s) ∧
      ((shmUpdateProcessResources pid usage (start pid) (directWrites start before s)).1 = -1 ↔
        slotFor pid (directWrites start calls s) = none) := by
  have hsplit : directWrites start calls s = directWrites start after
      (updateTable start pid usage (directWrites start before s)) := by
    rw [hcalls]
    unfold directWrites
    rw [List.foldl_append]
    rfl
  have hself : Decided pid (updateTable start pid usage (directWrites start before s)) := .self
  rw [hsplit, update_refused_iff, (decided_directWrites hself).2]
  refine ⟨(decided_directWrites hself).1, ?_⟩
  cases hbefore : slotFor pid (directWrites start before s) with
  | none => rw [updateTable_refused hbefore, hbefore]
  | some slot => rw [slotFor_update_self hbefore]

theorem slotFor_eq_none_iff (h : Decided pid s) :
    slotFor pid s = none ↔ pid ≤ 0 ∨ lookup s.processPids pid = none := by
  unfold slotFor
  by_cases hle : pid ≤ 0
  · simp [hle]
  · rw [if_neg hle, Option.or_eq_none_iff]
    constructor
    · rintro ⟨hnone, _⟩
      exact .inr hnone
    · rintro (hle' | hnone)
      · exact absurd hle' hle
      · rcases h with hle' | hsome | hfull
        · exact absurd hle' hle
        · rw [hnone] at hsome
          cases hsome
        · exact ⟨hnone, hfull⟩

/-- The refused pids are those that were asked for and have no entry. -/
theorem refused_iff :
    Refused start calls s pid ↔ Requested calls pid ∧
      (pid ≤ 0 ∨ lookup (directWrites start calls s).processPids pid = none) := by
  constructor
  · rintro ⟨before, now, usage, after, hcalls, hrefused⟩
    obtain ⟨hdecided, hiff⟩ := refused_at_iff start s hcalls
    refine ⟨⟨now, usage, ?_⟩, (slotFor_eq_none_iff hdecided).mp (hiff.mp hrefused)⟩
    rw [hcalls]
    exact List.mem_append_right _ List.mem_cons_self
  · rintro ⟨⟨now, usage, hmem⟩, habsent⟩
    obtain ⟨before, after, hcalls⟩ := List.append_of_mem hmem
    obtain ⟨hdecided, hiff⟩ := refused_at_iff start s hcalls
    exact ⟨before, now, usage, after, hcalls,
      hiff.mpr ((slotFor_eq_none_iff hdecided).mpr habsent)⟩

end Direct

/-! ## The simulation -/

/-- Batching is on, and writing the buffer out gives the table `d`. -/
structure Matches (start : Int → UInt64) (x : PerfOptimizer × SharedMemoryData)
    (d : SharedMemoryData) : Prop where
  enabled : x.1.batchingEnabled = true
  table : forgetVersion (drain (updateTable start) x.1.buffer.pending x.2) = forgetVersion d

section Simulation

variable {start : Int → UInt64} {x : PerfOptimizer × SharedMemoryData} {d : SharedMemoryData}

theorem Matches.update (h : Matches start x d) (now : UInt64) (pid : Int)
    (usage : ResourceUsage) :
    Matches start ((BatchCall.update now pid usage).exec start x)
      ((BatchCall.update now pid usage).direct start d) := by
  have hstore := updateTable_coalesces start
  obtain ⟨-, henabled, houtcome⟩ : _ ∧ _ ∧ BatchOutcome start pid usage x.1 x.2
      (perfOptimizerBatchUpdateResource start now pid usage x.1 x.2).2 :=
    batchUpdate_outcome now pid usage h.enabled
  refine ⟨henabled, ?_⟩
  -- either way the update is made after the buffer was written out
  have hwritten : forgetVersion (updateTable start pid usage
      (drain (updateTable start) x.1.buffer.pending x.2)) =
      forgetVersion (updateTable start pid usage d) := hstore.congr h.table
  show forgetVersion (drain _ (perfOptimizerBatchUpdateResource start now pid usage x.1
    x.2).2.1.buffer.pending (perfOptimizerBatchUpdateResource start now pid usage x.1 x.2).2.2) =
      forgetVersion (updateTable start pid usage d)
  generalize (perfOptimizerBatchUpdateResource start now pid usage x.1 x.2).2 = y at houtcome ⊢
  cases houtcome with
  | inserted hpending =>
      rw [hpending, hstore.drain_put x.1.buffer.merged]
      exact hwritten
  | restarted hpending =>
      rw [hpending]
      exact hwritten

theorem Matches.flush (h : Matches start x d) :
    Matches start (BatchCall.flush.exec start x) (BatchCall.flush.direct start d) := by
  refine ⟨flush_batchingEnabled.trans h.enabled, ?_⟩
  show forgetVersion (drain _ (perfOptimizerFlushBatchBuffer start x.1 x.2).1.buffer.pending
    (perfOptimizerFlushBatchBuffer start x.1 x.2).2) = forgetVersion d
  rw [flush_pending, flush_table]
  exact h.table

theorem Matches.batched (h : Matches start x d) (calls : List BatchCall) :
    Matches start (batched start calls x) (directWrites start calls d) := by
  induction calls generalizing x d with
  | nil => exact h
  | cons call rest ih =>
      cases call with
      | update now pid usage => exact ih (h.update now pid usage)
      | flush => exact ih h.flush

end Simulation

/-- **Batching is equivalent to direct writes.**  After any calls and a final
flush the process table and the totals are those of the direct writes, and the
pids that have been refused are those without an entry. -/
theorem batching_matches_direct (start : Int → UInt64) (calls : List BatchCall)
    (o : PerfOptimizer) (s : SharedMemoryData) (hon : o.batchingEnabled = true)
    (hempty : o.buffer.pending = []) :
    let final := (BatchCall.flush.exec start (batched start calls (o, s))).2
    let written := directWrites start calls s
    final.processPids = written.processPids ∧ final.processStats = written.processStats ∧
      final.processStartTimes = written.processStartTimes ∧
      final.globalStats = written.globalStats ∧
      ∀ pid, Refused start calls s pid ↔
        Requested calls pid ∧ (pid ≤ 0 ∨ lookup final.processPids pid = none) := by
  intro final written
  have hstart : Matches start (o, s) s := ⟨hon, by rw [hempty]; rfl⟩
  have htable : forgetVersion final = forgetVersion written := by
    have hflushed : final = drain (updateTable start)
        (batched start calls (o, s)).1.buffer.pending (batched start calls (o, s)).2 :=
      flush_table
    rw [hflushed]
    exact (hstart.batched calls).table
  have hfields : ∀ {α : Type} (field : SharedMemoryData → α),
      (∀ t, field t = field (forgetVersion t)) → field final = field written := by
    intro α field hfield
    rw [hfield final, htable, ← hfield]
  have hpids : final.processPids = written.processPids := hfields _ fun _ => rfl
  refine ⟨hpids, hfields _ fun _ => rfl, hfields _ fun _ => rfl, hfields _ fun _ => rfl, ?_⟩
  intro pid
  rw [hpids]
  exact refused_iff

/-- One pid updated twice, another once, the first one again after a flush. -/
theorem batching_matches_direct_at_four :
    let calls := [BatchCall.update 0 100 ⟨1, 0, 0⟩, .update 1 101 ⟨0, 1, 4096⟩,
      .update 2 100 ⟨2, 0, 0⟩, .flush, .update 3 100 ⟨3, 0, 0⟩]
    let o := perfOptimizerInit loadedOptimizer
    let final := (BatchCall.flush.exec (fun _ => 7) (batched (fun _ => 7) calls (o, zeroed))).2
    o.batchingEnabled = true ∧ o.buffer.pending = [] ∧
      final.processPids = (directWrites (fun _ => 7) calls zeroed).processPids ∧
      final.globalStats = (directWrites (fun _ => 7) calls zeroed).globalStats :=
  have hsame := batching_matches_direct (fun _ => 7)
    [BatchCall.update 0 100 ⟨1, 0, 0⟩, .update 1 101 ⟨0, 1, 4096⟩,
      .update 2 100 ⟨2, 0, 0⟩, .flush, .update 3 100 ⟨3, 0, 0⟩]
    (perfOptimizerInit loadedOptimizer) zeroed rfl rfl
  ⟨rfl, rfl, hsame.1, hsame.2.2.2.1⟩

end MtRdma.Ports.PerformanceOptimizer
