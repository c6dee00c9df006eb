import MtRdma.Ports.TableWrites

/-!
# The batch buffer (`performance_optimizer.c`)

With batching on, an update of a process's usage is not written to the process
table but kept in `g_batch_buffer`, which holds 256 pids, and is written out by
the next flush.  The functions below are executed by one thread; the three
sections of `g_batch_mutex` that a call can consist of are the definitions
`BatchBuffer.insert?`, `perfOptimizerFlushBatchBuffer` and
`BatchBuffer.restart`.

`last_flush` and `flush_interval_ms` of the buffer, and the operation and
latency statistics, are not read by what is modelled and are left out.
-/

namespace MtRdma.Ports.PerformanceOptimizer

open Verified.WriteBuffer
open SharedMemory

/-- `CACHE_BUCKET_COUNT`. -/
@[irreducible] def cacheBucketCount : Nat := 256

theorem cacheBucketCount_eq : cacheBucketCount = 256 := by
  unfold cacheBucketCount
  rfl

/-! ## The cache -/

/-- `cache_entry_t` without its lock. -/
structure CacheEntry where
  pid : Int
  usage : ResourceUsage
  lastUpdate : UInt64
  valid : Bool

/-- `hash_pid`. -/
def hashPid (pid : Int) : Fin cacheBucketCount where
  val := (UInt32.ofInt pid * 2654435761 % 256).toNat
  isLt := by
    rw [cacheBucketCount_eq, UInt32.toNat_mod]
    exact Nat.mod_lt _ (by decide)

/-! ## The buffer -/

/-- `g_batch_buffer`: the pids it holds differ, and there are at most
`CACHE_BUCKET_COUNT` of them. -/
structure BatchBuffer where
  pending : List (Int × ResourceUsage)
  merged : Merged pending
  count_le : pending.length ≤ cacheBucketCount

namespace BatchBuffer

def empty : BatchBuffer where
  pending := []
  merged := List.nodup_nil
  count_le := Nat.zero_le _

def pids (b : BatchBuffer) : List Int := b.pending.map Prod.fst

/-- `count`. -/
def count (b : BatchBuffer) : Nat := b.pending.length

theorem length_put_le {b : BatchBuffer} {pid : Int} {usage : ResourceUsage}
    (h : pid ∈ b.pids ∨ b.count < cacheBucketCount) :
    (put pid usage b.pending).length ≤ cacheBucketCount := by
  have hkeys := congrArg List.length (keys_put pid usage b.pending)
  have hle := b.count_le
  unfold pids count at h
  split at hkeys
  · rw [List.length_map, List.length_map] at hkeys
    omega
  · rw [List.length_append, List.length_map, List.length_map, List.length_singleton] at hkeys
    rcases h with hmem | hlt
    · contradiction
    · omega

/-- The first section of a batched update: overwrite the pending update of the
pid, or append one; `none` when the buffer is full. -/
def insert? (pid : Int) (usage : ResourceUsage) (b : BatchBuffer) : Option BatchBuffer :=
  if h : pid ∈ b.pids ∨ b.count < cacheBucketCount then
    some ⟨put pid usage b.pending, b.merged.put pid usage, length_put_le h⟩
  else none

/-- The last section of an update that found the buffer full: slot 0 is
written and `count` becomes 1, whatever the buffer holds by then. -/
def restart (pid : Int) (usage : ResourceUsage) : BatchBuffer where
  pending := [(pid, usage)]
  merged := List.nodup_singleton pid
  count_le := by
    rw [cacheBucketCount_eq, List.length_singleton]
    decide

theorem insert?_pending {pid : Int} {usage : ResourceUsage} {b b' : BatchBuffer}
    (h : b.insert? pid usage = some b') : b'.pending = put pid usage b.pending := by
  unfold insert? at h
  split at h
  · rw [← Option.some.inj h]
  · cases h

/-- Only a full buffer turns an update away. -/
theorem insert?_eq_none_iff {pid : Int} {usage : ResourceUsage} {b : BatchBuffer} :
    b.insert? pid usage = none ↔ pid ∉ b.pids ∧ b.count = cacheBucketCount := by
  have hle : b.count ≤ cacheBucketCount := b.count_le
  unfold insert?
  split
  · rename_i h
    refine iff_of_false (Option.some_ne_none _) ?_
    rintro ⟨hnot, hcount⟩
    rcases h with hmem | hlt
    · exact hnot hmem
    · omega
  · rename_i h
    rw [not_or] at h
    exact iff_of_true rfl ⟨h.1, by omega⟩

end BatchBuffer

/-! ## The optimizer -/

/-- The part of `perf_optimizer_stats_t` that is about batches. -/
structure BatchStats where
  batchFlushes : UInt64
  batchedUpdates : UInt64

/-- The file's static state. -/
structure PerfOptimizer where
  cache : Fin cacheBucketCount → CacheEntry
  buffer : BatchBuffer
  stats : BatchStats
  cacheEnabled : Bool
  batchingEnabled : Bool

/-- `perf_optimizer_init` as far as the state goes: the two switches are left
alone. -/
def perfOptimizerInit (o : PerfOptimizer) : PerfOptimizer :=
  { o with
    cache := fun _ => ⟨0, .zero, 0, false⟩
    buffer := .empty
    stats := ⟨0, 0⟩ }

/-- The statics when the library is loaded: both switches are on. -/
def loadedOptimizer : PerfOptimizer where
  cache := fun _ => ⟨0, .zero, 0, false⟩
  buffer := .empty
  stats := ⟨0, 0⟩
  cacheEnabled := true
  batchingEnabled := true

/-- `perf_optimizer_update_cached_resources`. -/
def perfOptimizerUpdateCachedResources (now : UInt64) (pid : Int) (usage : ResourceUsage)
    (o : PerfOptimizer) : PerfOptimizer :=
  if o.cacheEnabled then
    { o with cache := Function.update o.cache (hashPid pid) ⟨pid, usage, now, true⟩ }
  else o

/-- `perf_optimizer_enable_batching`.  The buffer is left as it is. -/
def perfOptimizerEnableBatching (enable : Bool) (o : PerfOptimizer) : PerfOptimizer :=
  { o with batchingEnabled := enable }

section Batching

variable (start : Int → UInt64)

/-- `perf_optimizer_flush_batch_buffer`.  What the updates of the table return
is not looked at. -/
def perfOptimizerFlushBatchBuffer (o : PerfOptimizer) (s : SharedMemoryData) :
    PerfOptimizer × SharedMemoryData :=
  if o.buffer.count = 0 then (o, s)
  else
    ({ o with
        buffer := .empty
        stats := { o.stats with batchFlushes := o.stats.batchFlushes + 1 } },
      drain (updateTable start) o.buffer.pending s)

/-- What follows once a batched update is in the buffer. -/
def finishBatched (now : UInt64) (pid : Int) (usage : ResourceUsage) (o : PerfOptimizer) :
    PerfOptimizer :=
  let o' := perfOptimizerUpdateCachedResources now pid usage o
  { o' with stats := { o'.stats with batchedUpdates := o'.stats.batchedUpdates + 1 } }

/-- `perf_optimizer_batch_update_resource`, with the clock reading that the
cache stores. -/
def perfOptimizerBatchUpdateResource (now : UInt64) (pid : Int) (usage : ResourceUsage)
    (o : PerfOptimizer) (s : SharedMemoryData) : Int × PerfOptimizer × SharedMemoryData :=
  if !o.batchingEnabled then
    let direct := shmUpdateProcessResources pid usage (start pid) s
    (direct.1, o, direct.2)
  else
    match o.buffer.insert? pid usage with
    | some buffer => (0, finishBatched now pid usage { o with buffer := buffer }, s)
    | none =>
        let flushed := perfOptimizerFlushBatchBuffer start o s
        (0, finishBatched now pid usage { flushed.1 with buffer := .restart pid usage }, flushed.2)

/-- `perf_optimizer_cleanup`, once the flush thread has been joined. -/
def perfOptimizerCleanup (o : PerfOptimizer) (s : SharedMemoryData) :
    PerfOptimizer × SharedMemoryData :=
  perfOptimizerFlushBatchBuffer start o s

/-- The body of the loop of `flush_thread_func`, after it has slept. -/
def flushThreadWakes (o : PerfOptimizer) (s : SharedMemoryData) :
    PerfOptimizer × SharedMemoryData :=
  if o.batchingEnabled then perfOptimizerFlushBatchBuffer start o s else (o, s)

/-! ### What the functions do to the buffer -/

@[simp] theorem finishBatched_buffer (now : UInt64) (pid : Int) (usage : ResourceUsage)
    (o : PerfOptimizer) : (finishBatched now pid usage o).buffer = o.buffer := by
  unfold finishBatched perfOptimizerUpdateCachedResources
  split <;> rfl

@[simp] theorem finishBatched_batchingEnabled (now : UInt64) (pid : Int)
    (usage : ResourceUsage) (o : PerfOptimizer) :
    (finishBatched now pid usage o).batchingEnabled = o.batchingEnabled := by
  unfold finishBatched perfOptimizerUpdateCachedResources
  split <;> rfl

variable {start} {o : PerfOptimizer} {s : SharedMemoryData}

/-- A flush writes out whatever there is. -/
theorem flush_table :
    (perfOptimizerFlushBatchBuffer start o s).2 =
      drain (updateTable start) o.buffer.pending s := by
  unfold perfOptimizerFlushBatchBuffer
  split
  · rename_i hcount
    rw [List.eq_nil_of_length_eq_zero hcount]
    rfl
  · rfl

theorem flush_pending : (perfOptimizerFlushBatchBuffer start o s).1.buffer.pending = [] := by
  unfold perfOptimizerFlushBatchBuffer
  split
  · rename_i hcount
    exact List.eq_nil_of_length_eq_zero hcount
  · rfl

@[simp] theorem flush_batchingEnabled :
    (perfOptimizerFlushBatchBuffer start o s).1.batchingEnabled = o.batchingEnabled := by
  unfold perfOptimizerFlushBatchBuffer
  split <;> rfl

/-- How a batched update can end. -/
inductive BatchOutcome (start : Int → UInt64) (pid : Int) (usage : ResourceUsage)
    (o : PerfOptimizer) (s : SharedMemoryData) : PerfOptimizer × SharedMemoryData → Prop
  | inserted {o' : PerfOptimizer} : o'.buffer.pending = put pid usage o.buffer.pending →
      BatchOutcome start pid usage o s (o', s)
  | restarted {o' : PerfOptimizer} : o'.buffer.pending = [(pid, usage)] →
      BatchOutcome start pid usage o s (o', drain (updateTable start) o.buffer.pending s)

theorem batchUpdate_outcome (now : UInt64) (pid : Int) (usage : ResourceUsage)
    (h : o.batchingEnabled = true) :
    (perfOptimizerBatchUpdateResource start now pid usage o s).1 = 0 ∧
      (perfOptimizerBatchUpdateResource start now pid usage o s).2.1.batchingEnabled = true ∧
      BatchOutcome start pid usage o s
        (perfOptimizerBatchUpdateResource start now pid usage o s).2 := by
  unfold perfOptimizerBatchUpdateResource
  rw [if_neg (by simp [h])]
  split
  · rename_i buffer hinsert
    refine ⟨rfl, (finishBatched_batchingEnabled ..).trans h, .inserted ?_⟩
    rw [finishBatched_buffer]
    exact BatchBuffer.insert?_pending hinsert
  · refine ⟨rfl, ?_, ?_⟩
    · exact (finishBatched_batchingEnabled ..).trans (flush_batchingEnabled.trans h)
    · show BatchOutcome start pid usage o s (_, (perfOptimizerFlushBatchBuffer start o s).2)
      rw [flush_table]
      refine .restarted ?_
      rw [finishBatched_buffer]
      rfl

end Batching

end MtRdma.Ports.PerformanceOptimizer
