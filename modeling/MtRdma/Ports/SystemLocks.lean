import MtRdma.Verified.LockOrder
import MtRdma.Ports.PerformanceOptimizer
import MtRdma.Ports.PolicyLocks

/-!
# The locks of the whole system

The processes of the system share two spin locks, one in each segment, and every
process has mutexes of its own: the policy manager's two, the optimizer's two and
one spin lock for each cache entry, the logger's, the hooks', and in the collector
one for the eBPF maps and two for its limits.  `gc_handle_process_exit` gives the lock of
the first segment back before it calls the tenant store, with the remark that this
avoids a deadlock by the order of locks.

This module has for each function the order in which it takes and releases locks,
and nothing else: where a branch depends on data, the branch is a parameter.  Only
five functions hold a lock while they take another one, and all of them hold a mutex
of their process and take the lock of the segment:

* `perf_optimizer_flush_batch_buffer` holds `g_batch_mutex`;
* `sync_ebpf_data_to_shared_memory` holds `ebpf_sync_mutex`;
* `dynamic_policy_init`, `_set_limit` and `_update` hold `g_policy_mutex`.

So the order "own mutexes, then the lock of the segment" is kept by all, and
whatever the threads of all processes call, in every interleaving they can go on
until all calls have returned.  The thread of the policy manager that adjusts limits
is not among them: it takes `g_policy_mutex` twice, which no order allows
(`adjustPass_not_ordered`).  Waiting for a thread to end (`pthread_join`) is not a
lock and is left out.
-/

namespace MtRdma.Ports.SystemLocks

open Verified.Runs
open Verified.Mutex
open Verified.LockOrder
open PerformanceOptimizer (cacheBucketCount)

variable {π θ : Type}

/-- The mutexes that each process has for itself. -/
inductive OwnLock where
  /-- `g_policy_mutex` -/
  | policy
  /-- `g_tenant_mutex` -/
  | tenantPolicy
  /-- `g_batch_mutex` -/
  | batch
  /-- `g_stats_mutex` of the optimizer -/
  | stats
  /-- `g_cache.entries[i].lock` -/
  | entry (i : Fin cacheBucketCount)
  /-- `ebpf_sync_mutex` -/
  | ebpfSync
  /-- `qp_count_mutex` -/
  | qpCount
  /-- `memory_count_mutex` -/
  | memoryCount
  /-- `mr_rate_limit_mutex` -/
  | mrRateLimit
  /-- `g_intercept_state.resource_mutex` -/
  | resource
  /-- `g_verb_ctx_mutex` -/
  | verbCtx
  /-- `g_intercept_state.log_mutex` -/
  | log
  /-- `log_file_mutex` -/
  | logFile
  /-- `stats_mutex` of the logger -/
  | logStats
  deriving DecidableEq

/-- The locks of all processes `π`. -/
inductive SystemLock (π : Type) where
  | own (p : π) (m : OwnLock)
  /-- `shm_lock` of `shared_memory.c` -/
  | shm
  /-- `tenant_shm_lock` of `shared_memory_tenant.c` -/
  | tenantShm
  deriving DecidableEq

/-- Own mutexes before the lock of the segment.  The tenant store's lock is taken
with nothing held and needs no place in the order. -/
def SystemLock.rank : SystemLock π → Nat
  | .shm => 1
  | _ => 0

/-- Code as far as it concerns the locks; `()` is the work inside a section. -/
abbrev SystemOp (π : Type) := Op (SystemLock π) Unit

/-- One critical section. -/
def oneSection (m : SystemLock π) : List (SystemOp π) := critical m [()]

/-! ## The code of the functions -/

/-- `shm_update_process_resources` and `shm_set_global_limits`, which return before
the lock if they reject their arguments or no segment is mapped. -/
def shmSection (accepted : Bool) : List (SystemOp π) :=
  if accepted then oneSection .shm else []

/-- How far `perf_optimizer_get_cached_resources` gets. -/
inductive Lookup where
  /-- No cache, or nowhere to copy to. -/
  | disabled
  /-- The look without the lock finds no entry of the process. -/
  | early
  /-- The entry is examined under its lock. -/
  | locked
  deriving Repr, DecidableEq

/-- `perf_optimizer_get_cached_resources` -/
def getCachedResources (p : π) (i : Fin cacheBucketCount) : Lookup → List (SystemOp π)
  | .disabled => []
  | .early => oneSection (.own p .stats)
  | .locked => oneSection (.own p (.entry i)) ++ oneSection (.own p .stats)

/-- `perf_optimizer_update_cached_resources` -/
def updateCachedResources (p : π) (i : Fin cacheBucketCount) (enabled : Bool) :
    List (SystemOp π) :=
  if enabled then oneSection (.own p (.entry i)) else []

/-- `perf_optimizer_clear_cache` -/
def clearCache (p : π) : List (SystemOp π) :=
  (List.finRange cacheBucketCount).flatMap (fun i => oneSection (.own p (.entry i))) ++
    oneSection (.own p .stats)

/-- `perf_optimizer_flush_batch_buffer` of a buffer whose updates are `accepted` by
`shm_update_process_resources` or not. -/
def flushBatchBuffer (p : π) : List Bool → List (SystemOp π)
  | [] => oneSection (.own p .batch)
  | accepted =>
      .lock (.own p .batch) :: (accepted.flatMap shmSection ++ [.unlock (.own p .batch)]) ++
        oneSection (.own p .stats)

/-- How `perf_optimizer_batch_update_resource` disposes of an update. -/
inductive Buffering where
  /-- Batching is off: the update goes to the segment. -/
  | direct (accepted : Bool)
  /-- The update is merged or appended. -/
  | room
  /-- The buffer is full and flushed first. -/
  | full (accepted : List Bool)
  deriving Repr, DecidableEq

/-- `perf_optimizer_batch_update_resource` -/
def batchUpdateResource (p : π) (i : Fin cacheBucketCount) (cache : Bool) :
    Buffering → List (SystemOp π)
  | .direct accepted => shmSection accepted
  | .room =>
      oneSection (.own p .batch) ++ updateCachedResources p i cache ++ oneSection (.own p .stats)
  | .full accepted =>
      oneSection (.own p .batch) ++ flushBatchBuffer p accepted ++ oneSection (.own p .batch) ++
        updateCachedResources p i cache ++ oneSection (.own p .stats)

/-- `perf_optimizer_check_resource_fast` -/
def checkResourceFast (p : π) (i : Fin cacheBucketCount) (lookup : Lookup) :
    List (SystemOp π) :=
  oneSection (.own p .stats) ++ getCachedResources p i lookup ++ oneSection (.own p .stats)

/-- `sync_ebpf_data_to_shared_memory`: `global` says that the totals could be read,
and `accepted` has one element for each process found in the map. -/
def syncEbpfDataToSharedMemory (p : π) (mapped global : Bool) (accepted : List Bool) :
    List (SystemOp π) :=
  .lock (.own p .ebpfSync) ::
    ((if mapped then shmSection global ++ accepted.flatMap shmSection else []) ++
      [.unlock (.own p .ebpfSync)])

/-- `gc_handle_process_exit`: the process is taken out of the table, and then its
tenant is looked up, read and updated, as far as each call succeeds. -/
def gcHandleProcessExit (mapped : Bool) (tenantCalls : Fin 4) : List (SystemOp π) :=
  if mapped then
    oneSection .shm ++ (List.replicate tenantCalls ()).flatMap fun _ => oneSection .tenantShm
  else []

/-- The functions of the policy manager that write limits to the segment
(`dynamic_policy_init`, `_set_limit`, `_update`): under `g_policy_mutex`, unless they
give up before.  The last two return without a lock if they are given no limit. -/
def policySync (p : π) (reached accepted : Bool) : List (SystemOp π) :=
  .lock (.own p .policy) ::
    ((if reached then shmSection accepted else []) ++ [.unlock (.own p .policy)])

/-- A call by some thread. -/
inductive LockCall (π : Type) where
  /-- A function that holds one lock at a time, or none: the hooks, the logger, the
  tenant store, the other functions of the policy manager and of the collector. -/
  | sections (locks : List (SystemLock π))
  | getCached (p : π) (i : Fin cacheBucketCount) (lookup : Lookup)
  | updateCached (p : π) (i : Fin cacheBucketCount) (enabled : Bool)
  | clearCache (p : π)
  | flush (p : π) (accepted : List Bool)
  | batchUpdate (p : π) (i : Fin cacheBucketCount) (cache : Bool) (buffering : Buffering)
  | checkFast (p : π) (i : Fin cacheBucketCount) (lookup : Lookup)
  | syncEbpf (p : π) (mapped global : Bool) (accepted : List Bool)
  | processExit (mapped : Bool) (tenantCalls : Fin 4)
  | policySync (p : π) (reached accepted : Bool)

def LockCall.code : LockCall π → List (SystemOp π)
  | .sections locks => locks.flatMap oneSection
  | .getCached p i lookup => getCachedResources p i lookup
  | .updateCached p i enabled => updateCachedResources p i enabled
  | .clearCache p => SystemLocks.clearCache p
  | .flush p accepted => flushBatchBuffer p accepted
  | .batchUpdate p i cache buffering => batchUpdateResource p i cache buffering
  | .checkFast p i lookup => checkResourceFast p i lookup
  | .syncEbpf p mapped global accepted => syncEbpfDataToSharedMemory p mapped global accepted
  | .processExit mapped tenantCalls => gcHandleProcessExit mapped tenantCalls
  | .policySync p reached accepted => SystemLocks.policySync p reached accepted

/-- All locks are free, and each thread is about to make its calls. -/
def start (calls : θ → List (LockCall π)) : Threads θ (SystemLock π) Unit :=
  ⟨fun _ => none, fun t => (calls t).flatMap LockCall.code⟩

/-! ## The order -/

variable [DecidableEq π]

/-- Code that is entered with nothing held keeps the order. -/
abbrev InOrder (code : List (SystemOp π)) : Prop :=
  Ordered SystemLock.rank (fun _ => false) code

theorem InOrder.nil : InOrder ([] : List (SystemOp π)) := fun _ => rfl

theorem inOrder_oneSection (m : SystemLock π) : InOrder (oneSection m) :=
  Ordered.critical m [()]

theorem InOrder.seq {xs ys : List (SystemOp π)} (hxs : InOrder xs) (hys : InOrder ys) :
    InOrder (xs ++ ys) :=
  Ordered.append hys xs _ hxs

theorem inOrder_shmSection (accepted : Bool) :
    InOrder (shmSection accepted : List (SystemOp π)) := by
  cases accepted with
  | false => exact InOrder.nil
  | true => exact inOrder_oneSection .shm

omit [DecidableEq π] in
theorem eq_shm_of_mem_shmSection {accepted : Bool} {m : SystemLock π}
    (h : .lock m ∈ shmSection accepted) : m = .shm := by
  cases accepted with
  | false => simp [shmSection] at h
  | true => simpa [shmSection, oneSection, critical] using h

/-- Several updates of the segment, one after the other. -/
theorem inOrder_shmSections (accepted : List Bool) :
    InOrder (accepted.flatMap shmSection : List (SystemOp π)) :=
  Ordered.flatMap accepted fun a _ => inOrder_shmSection a

omit [DecidableEq π] in
theorem eq_shm_of_mem_shmSections {accepted : List Bool} {m : SystemLock π}
    (h : .lock m ∈ accepted.flatMap shmSection) : m = .shm := by
  obtain ⟨a, -, hlock⟩ := List.mem_flatMap.mp h
  exact eq_shm_of_mem_shmSection hlock

/-- An own mutex held around updates of the segment. -/
theorem inOrder_around (p : π) (m : OwnLock) {code : List (SystemOp π)} (hcode : InOrder code)
    (hshm : ∀ m', .lock m' ∈ code → m' = .shm) :
    InOrder (.lock (.own p m) :: (code ++ [.unlock (.own p m)])) := by
  refine Ordered.around (fun m' hm' => ?_) hcode
  rw [hshm m' hm']
  exact Nat.zero_lt_one

theorem inOrder_getCachedResources (p : π) (i : Fin cacheBucketCount) (lookup : Lookup) :
    InOrder (getCachedResources p i lookup) := by
  cases lookup with
  | disabled => exact InOrder.nil
  | early => exact inOrder_oneSection _
  | locked => exact (inOrder_oneSection _).seq (inOrder_oneSection _)

theorem inOrder_updateCachedResources (p : π) (i : Fin cacheBucketCount) (enabled : Bool) :
    InOrder (updateCachedResources p i enabled) := by
  cases enabled with
  | false => exact InOrder.nil
  | true => exact inOrder_oneSection _

theorem inOrder_flushBatchBuffer (p : π) (accepted : List Bool) :
    InOrder (flushBatchBuffer p accepted) := by
  cases accepted with
  | nil => exact inOrder_oneSection _
  | cons first rest =>
      have hupdates : InOrder ((first :: rest).flatMap shmSection : List (SystemOp π)) :=
        inOrder_shmSections (first :: rest)
      have hbatch := inOrder_around p .batch hupdates fun _ => eq_shm_of_mem_shmSections
      exact hbatch.seq (inOrder_oneSection _)

theorem inOrder_batchUpdateResource (p : π) (i : Fin cacheBucketCount) (cache : Bool)
    (buffering : Buffering) : InOrder (batchUpdateResource p i cache buffering) := by
  have hbatch := inOrder_oneSection (.own p .batch)
  have hafter := inOrder_updateCachedResources p i cache
  have hstats := inOrder_oneSection (.own p .stats)
  cases buffering with
  | direct accepted => exact inOrder_shmSection accepted
  | room => exact (hbatch.seq hafter).seq hstats
  | full accepted =>
      have hflush := inOrder_flushBatchBuffer p accepted
      exact (((hbatch.seq hflush).seq hbatch).seq hafter).seq hstats

theorem inOrder_syncEbpf (p : π) (mapped global : Bool) (accepted : List Bool) :
    InOrder (syncEbpfDataToSharedMemory p mapped global accepted) := by
  cases mapped with
  | false => exact inOrder_around p .ebpfSync InOrder.nil (by simp)
  | true =>
      have hupdates :
          InOrder (shmSection global ++ accepted.flatMap shmSection : List (SystemOp π)) :=
        (inOrder_shmSection global).seq (inOrder_shmSections accepted)
      refine inOrder_around p .ebpfSync hupdates fun m' hm' => ?_
      rcases List.mem_append.mp hm' with hglobal | hprocess
      · exact eq_shm_of_mem_shmSection hglobal
      · exact eq_shm_of_mem_shmSections hprocess

theorem inOrder_gcHandleProcessExit (mapped : Bool) (tenantCalls : Fin 4) :
    InOrder (gcHandleProcessExit mapped tenantCalls : List (SystemOp π)) := by
  cases mapped with
  | false => exact InOrder.nil
  | true =>
      refine (inOrder_oneSection _).seq (Ordered.flatMap _ fun _ _ => ?_)
      exact inOrder_oneSection _

theorem inOrder_policySync (p : π) (reached accepted : Bool) :
    InOrder (policySync p reached accepted) := by
  cases reached with
  | false => exact inOrder_around p .policy InOrder.nil (by simp)
  | true =>
      exact inOrder_around p .policy (inOrder_shmSection accepted) fun _ =>
        eq_shm_of_mem_shmSection

/-- Every function keeps the order. -/
theorem inOrder_code (call : LockCall π) : InOrder call.code := by
  cases call with
  | sections locks => exact Ordered.flatMap locks fun m _ => inOrder_oneSection m
  | getCached p i lookup => exact inOrder_getCachedResources p i lookup
  | updateCached p i enabled => exact inOrder_updateCachedResources p i enabled
  | clearCache p =>
      have hentries := Ordered.flatMap (List.finRange cacheBucketCount) fun i _ =>
        inOrder_oneSection (.own p (.entry i))
      exact InOrder.seq hentries (inOrder_oneSection (.own p .stats))
  | flush p accepted => exact inOrder_flushBatchBuffer p accepted
  | batchUpdate p i cache buffering => exact inOrder_batchUpdateResource p i cache buffering
  | checkFast p i lookup =>
      have hstats := inOrder_oneSection (.own p .stats)
      exact (hstats.seq (inOrder_getCachedResources p i lookup)).seq hstats
  | syncEbpf p mapped global accepted => exact inOrder_syncEbpf p mapped global accepted
  | processExit mapped tenantCalls => exact inOrder_gcHandleProcessExit mapped tenantCalls
  | policySync p reached accepted => exact inOrder_policySync p reached accepted

/-! ## All processes -/

variable [DecidableEq θ]

theorem allOrdered_start (calls : θ → List (LockCall π)) :
    AllOrdered SystemLock.rank (start calls) := fun t =>
  Ordered.flatMap (calls t) fun call _ => inOrder_code call

omit [DecidableEq π] in
theorem rank_le_one (m : SystemLock π) : m.rank ≤ 1 := by
  cases m with
  | own p m => exact Nat.zero_le 1
  | shm => exact Nat.le_refl 1
  | tenantShm => exact Nat.zero_le 1

/-- **The locks cannot block the system.**  Whatever the threads of all processes
call and however far they have come, they can go on until all calls have returned
and all locks are free, and no schedule is longer than the code of the calls. -/
theorem system_locks_complete [Fintype θ] (calls : θ → List (LockCall π)) {schedule : List θ}
    {c : Threads θ (SystemLock π) Unit} (hrun : Run LockStep (start calls) schedule c) :
    schedule.length ≤ left (start calls) ∧
      ∃ later c', Run LockStep c later c' ∧ (∀ t, c'.code t = []) ∧ ∀ m, c'.owner m = none := by
  have hordered := (allOrdered_start calls).run hrun
  obtain ⟨later, c', hlater, hdone⟩ := completes rank_le_one hordered
  have hlength := run_length hrun
  refine ⟨by omega, later, c', hlater, hdone, fun m => ?_⟩
  exact (hordered.run hlater).free hdone m

/-- A flush of one process holds its buffer while an exit is handled. -/
theorem system_locks_complete_flush :
    ∃ c : Threads Bool (SystemLock Bool) Unit, c.owner (.own true .batch) = some true ∧
      ∃ later c', Run LockStep c later c' ∧ (∀ t, c'.code t = []) ∧ ∀ m, c'.owner m = none := by
  let calls : Bool → List (LockCall Bool) := fun t =>
    if t then [.flush true [true]] else [.processExit true 3]
  have hcode : (start calls).code true = .lock (.own true .batch) :: _ := rfl
  have hrun : Run LockStep (start calls) ([] ++ [true]) _ := .snoc .start (.take hcode rfl)
  exact ⟨_, by simp [Threads.take], (system_locks_complete calls hrun).2⟩

/-- The thread that adjusts limits takes `g_policy_mutex` while it holds it: no ranks
make this an order. -/
theorem adjustPass_not_ordered (rank : PolicyLocks.PolicyMutex → Nat) :
    ¬Ordered rank (fun _ => false) PolicyLocks.adjustPass := by
  intro hordered
  have htwice := hordered.2.1 .policy (Function.update_self ..)
  exact Nat.lt_irrefl _ htwice

end MtRdma.Ports.SystemLocks
