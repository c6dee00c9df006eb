import MtRdma.Verified.Runs
import MtRdma.Ports.PerformanceOptimizer

/-!
# The resource cache (`performance_optimizer.c`)

The cache is direct mapped: the entry of a pid is the one its hash selects, and
an update of any pid takes the entry it selects.  A reader finds an entry only
within the lifetime `g_cache.ttl_ms`, and a reader that finds its entry too old
clears it.  The calls below are those of one thread, each with the clock
reading it takes.

What a reader finds is settled against the list of calls alone: a usage is
found exactly when the update that stored it is the last one of its pid and
nothing since has taken the entry away.
-/

namespace MtRdma.Ports.ResourceCache

open Verified.Runs
open SharedMemory
open PerformanceOptimizer

/-! ## The functions -/

/-- The hits and misses, counted once in `g_stats` and once in `g_cache`. -/
structure CacheStats where
  cacheHits : UInt64
  cacheMisses : UInt64
  hitCount : UInt64
  missCount : UInt64
  deriving Repr, DecidableEq

/-- The file's static state with the part that only the cache reads. -/
structure CachedOptimizer extends PerfOptimizer where
  ttlMs : UInt32
  cacheStats : CacheStats

/-- `perf_optimizer_init` with the lifetime it sets. -/
def perfOptimizerInitCache (o : CachedOptimizer) : CachedOptimizer where
  toPerfOptimizer := perfOptimizerInit o.toPerfOptimizer
  ttlMs := 100
  cacheStats := ⟨0, 0, 0, 0⟩

def CachedOptimizer.hit (o : CachedOptimizer) : CachedOptimizer :=
  { o with
    cacheStats := { o.cacheStats with
      cacheHits := o.cacheStats.cacheHits + 1
      hitCount := o.cacheStats.hitCount + 1 } }

def CachedOptimizer.miss (o : CachedOptimizer) : CachedOptimizer :=
  { o with
    cacheStats := { o.cacheStats with
      cacheMisses := o.cacheStats.cacheMisses + 1
      missCount := o.cacheStats.missCount + 1 } }

/-- `entry->valid = 0` for one entry. -/
def CachedOptimizer.drop (i : Fin cacheBucketCount) (o : CachedOptimizer) : CachedOptimizer :=
  { o with cache := Function.update o.cache i { o.cache i with valid := false } }

/-- `perf_optimizer_get_cached_resources`.  One thread finds the same entry
before and after it has taken the entry's lock, so the test that is repeated
under the lock stands here once. -/
def perfOptimizerGetCachedResources (now : UInt64) (pid : Int) (o : CachedOptimizer) :
    Option ResourceUsage × CachedOptimizer :=
  if !o.cacheEnabled then (none, o)
  else
    let entry := o.cache (hashPid pid)
    if !entry.valid || entry.pid != pid then (none, o.miss)
    else if o.ttlMs.toUInt64 < now - entry.lastUpdate then (none, (o.drop (hashPid pid)).miss)
    else (some entry.usage, o.hit)

/-- The usage of a resource in a record of the cache; memory is counted in
megabytes, and a resource without a case keeps what the caller passed. -/
def cachedCurrent (resourceType : Int) (current : UInt32) (usage : ResourceUsage) : UInt32 :=
  if resourceType = 0 then usage.qpCount.toUInt32
  else if resourceType = 1 then usage.mrCount.toUInt32
  else if resourceType = 2 then (usage.memoryUsed / (1024 * 1024)).toUInt32
  else current

/-- `perf_optimizer_check_resource_fast`: `true` means allowed. -/
def perfOptimizerCheckResourceFast (now : UInt64) (pid resourceType : Int)
    (current requested limit : UInt32) (o : CachedOptimizer) : Bool × CachedOptimizer :=
  let cached := perfOptimizerGetCachedResources now pid o
  let actualCurrent :=
    match cached.1 with
    | some usage => cachedCurrent resourceType current usage
    | none => current
  (decide (actualCurrent + requested ≤ limit), cached.2)

/-- `perf_optimizer_update_cached_resources`. -/
def updateCachedResources (now : UInt64) (pid : Int) (usage : ResourceUsage)
    (o : CachedOptimizer) : CachedOptimizer :=
  { o with
    toPerfOptimizer := perfOptimizerUpdateCachedResources now pid usage o.toPerfOptimizer }

/-- `perf_optimizer_invalidate_cache`. -/
def perfOptimizerInvalidateCache (pid : Int) (o : CachedOptimizer) : CachedOptimizer :=
  if (o.cache (hashPid pid)).pid = pid then o.drop (hashPid pid) else o

/-- `perf_optimizer_clear_cache`.  Only the counters of `g_cache` start
again. -/
def perfOptimizerClearCache (o : CachedOptimizer) : CachedOptimizer :=
  { o with
    cache := fun i => { o.cache i with valid := false }
    cacheStats := { o.cacheStats with hitCount := 0, missCount := 0 } }

/-- The lifetime `perf_optimizer_set_cache_ttl` stores. -/
def clipTtl (ttlMs : UInt32) : UInt32 :=
  let ttlMs := if ttlMs < 10 then 10 else ttlMs
  if 10000 < ttlMs then 10000 else ttlMs

/-- `perf_optimizer_set_cache_ttl`. -/
def perfOptimizerSetCacheTtl (ttlMs : UInt32) (o : CachedOptimizer) : CachedOptimizer :=
  { o with ttlMs := clipTtl ttlMs }

/-! ## Sequences of calls -/

/-- A call, with the clock reading it takes. -/
inductive CacheCall where
  | update (now : UInt64) (pid : Int) (usage : ResourceUsage)
  | get (now : UInt64) (pid : Int)
  | invalidate (pid : Int)
  | clear
  | setTtl (ttlMs : UInt32)

namespace CacheCall

def exec (o : CachedOptimizer) : CacheCall → CachedOptimizer
  | update now pid usage => updateCachedResources now pid usage o
  | get now pid => (perfOptimizerGetCachedResources now pid o).2
  | invalidate pid => perfOptimizerInvalidateCache pid o
  | clear => perfOptimizerClearCache o
  | setTtl ttlMs => perfOptimizerSetCacheTtl ttlMs o

/-- The clock reading of a call that takes one. -/
def time? : CacheCall → Option UInt64
  | update now _ _ => some now
  | get now _ => some now
  | _ => none

/-- The lifetime in force after a call, from the one before it. -/
def ttlAfter (ttlMs : UInt32) : CacheCall → UInt32
  | setTtl ttl => clipTtl ttl
  | _ => ttlMs

/-- What takes the entry of `pid` away that was stored at `since`: an update
of a pid with the same hash, which is the pid itself or another one, an
invalidation, a clear, or a reader that finds the entry too old for the
lifetime in force. -/
def Takes (pid : Int) (since : UInt64) (ttlMs : UInt32) : CacheCall → Prop
  | update _ other _ => hashPid other = hashPid pid
  | get now other => other = pid ∧ ttlMs.toNat < now.toNat - since.toNat
  | invalidate other => other = pid
  | clear => True
  | setTtl _ => False

instance (pid : Int) (since : UInt64) (ttlMs : UInt32) (call : CacheCall) :
    Decidable (call.Takes pid since ttlMs) := by
  cases call <;> unfold Takes <;> infer_instance

end CacheCall

/-- The state after `perf_optimizer_init` and some calls. -/
def cacheAfter (o : CachedOptimizer) (calls : List CacheCall) : CachedOptimizer :=
  calls.foldl CacheCall.exec (perfOptimizerInitCache o)

/-- The lifetime in force after some calls. -/
def ttlInForce (calls : List CacheCall) : UInt32 :=
  calls.foldl CacheCall.ttlAfter 100

/-- The clock readings of some calls. -/
def readings (calls : List CacheCall) : List UInt64 := calls.filterMap CacheCall.time?

/-- The update that stored `usage` for `pid` at `since` is the last one of the
pid, and no call after it has taken the entry away. -/
def Kept (pid : Int) (since : UInt64) (usage : ResourceUsage) (calls : List CacheCall) : Prop :=
  SinceAt (fun call => call = .update since pid usage)
    (fun before call => call.Takes pid since (ttlInForce before)) calls

/-! ## What a call does to an entry -/

/-- The entry of `pid` holds what an update at `since` stored. -/
def Holds (pid : Int) (since : UInt64) (usage : ResourceUsage) (o : CachedOptimizer) : Prop :=
  o.cache (hashPid pid) = ⟨pid, usage, since, true⟩

theorem exec_settings (o : CachedOptimizer) (call : CacheCall) :
    (call.exec o).cacheEnabled = o.cacheEnabled ∧ (call.exec o).ttlMs = call.ttlAfter o.ttlMs := by
  cases call with
  | clear | setTtl => exact ⟨rfl, rfl⟩
  | update | get | invalidate =>
      simp only [CacheCall.exec, CacheCall.ttlAfter, updateCachedResources,
        perfOptimizerUpdateCachedResources, perfOptimizerGetCachedResources,
        perfOptimizerInvalidateCache, CachedOptimizer.miss, CachedOptimizer.hit,
        CachedOptimizer.drop]
      split_ifs <;> simp

section Entry

variable {o : CachedOptimizer} {pid : Int} {since : UInt64} {usage : ResourceUsage}

theorem drop_cache (i : Fin cacheBucketCount) :
    (o.drop i).cache = Function.update o.cache i { o.cache i with valid := false } := rfl

theorem updateCachedResources_cache (henabled : o.cacheEnabled = true) (now : UInt64)
    (pid : Int) (usage : ResourceUsage) :
    (updateCachedResources now pid usage o).cache =
      Function.update o.cache (hashPid pid) ⟨pid, usage, now, true⟩ := by
  unfold updateCachedResources perfOptimizerUpdateCachedResources
  simp only [henabled, if_true]

theorem holds_miss : Holds pid since usage o.miss ↔ Holds pid since usage o := Iff.rfl

theorem holds_hit : Holds pid since usage o.hit ↔ Holds pid since usage o := Iff.rfl

theorem holds_drop (i : Fin cacheBucketCount) :
    Holds pid since usage (o.drop i) ↔ Holds pid since usage o ∧ i ≠ hashPid pid := by
  unfold Holds
  rw [drop_cache]
  by_cases hi : i = hashPid pid
  · subst hi
    simp
  · rw [Function.update_of_ne (Ne.symm hi)]
    simp [hi]

theorem holds_update (henabled : o.cacheEnabled = true) (now : UInt64) (other : Int)
    (stored : ResourceUsage) :
    Holds pid since usage (updateCachedResources now other stored o) ↔
      (now = since ∧ other = pid ∧ stored = usage) ∨
        (Holds pid since usage o ∧ hashPid other ≠ hashPid pid) := by
  unfold Holds
  rw [updateCachedResources_cache henabled]
  by_cases hhash : hashPid pid = hashPid other
  · rw [hhash, Function.update_self, CacheEntry.mk.injEq]
    simp only [ne_eq, not_true_eq_false, and_false, or_false, and_true]
    tauto
  · have hne : other ≠ pid := fun h => hhash (h ▸ rfl)
    rw [Function.update_of_ne hhash]
    simp [hne, Ne.symm hhash]

theorem holds_invalidate (other : Int) :
    Holds pid since usage (perfOptimizerInvalidateCache other o) ↔
      Holds pid since usage o ∧ other ≠ pid := by
  unfold perfOptimizerInvalidateCache
  by_cases hother : other = pid
  · subst hother
    split
    · rw [holds_drop]
      simp
    · rename_i hpid
      have hnot : ¬Holds other since usage o := fun h => hpid (congrArg CacheEntry.pid h)
      simp [hnot]
  · split
    · rename_i hpid
      rw [holds_drop]
      -- the entry cannot be that of two pids
      have hne (h : Holds pid since usage o) : hashPid other ≠ hashPid pid := by
        intro hhash
        rw [hhash, h] at hpid
        exact hother hpid.symm
      simp only [hother, ne_eq, not_false_eq_true, and_true, and_iff_left_iff_imp]
      exact hne
    · simp [hother]

theorem holds_get (henabled : o.cacheEnabled = true) (now : UInt64) (other : Int) :
    Holds pid since usage (perfOptimizerGetCachedResources now other o).2 ↔
      Holds pid since usage o ∧ ¬(other = pid ∧ o.ttlMs.toUInt64 < now - since) := by
  unfold perfOptimizerGetCachedResources
  rw [if_neg (by simp [henabled])]
  dsimp only
  split
  · rename_i hmiss
    rw [holds_miss]
    refine (and_iff_left_of_imp ?_).symm
    rintro h ⟨rfl, -⟩
    simp [show o.cache (hashPid other) = _ from h] at hmiss
  · rename_i hfound
    simp only [Bool.or_eq_true, Bool.not_eq_true', bne_iff_ne, ne_eq, not_or,
      Bool.not_eq_false, Decidable.not_not] at hfound
    -- of the pids with this hash, only the one read has the entry
    have hsame (h : Holds pid since usage o) (hhash : hashPid other = hashPid pid) :
        other = pid ∧ (o.cache (hashPid other)).lastUpdate = since := by
      rw [hhash, show o.cache (hashPid pid) = _ from h] at hfound
      exact ⟨hfound.2.symm, by rw [hhash, show o.cache (hashPid pid) = _ from h]⟩
    split
    · rename_i hold
      rw [holds_miss, holds_drop]
      refine and_congr_right fun h => ?_
      constructor
      · rintro hhash ⟨rfl, -⟩
        exact hhash rfl
      · intro hread hhash
        obtain ⟨hpid, hsince⟩ := hsame h hhash
        exact hread ⟨hpid, hsince ▸ hold⟩
    · rename_i hfresh
      rw [holds_hit]
      refine (and_iff_left_of_imp ?_).symm
      rintro h ⟨rfl, hold⟩
      exact hfresh ((hsame h rfl).2 ▸ hold)

/-- What a reader returns. -/
theorem get_eq_some_iff (henabled : o.cacheEnabled = true) (now : UInt64) :
    (perfOptimizerGetCachedResources now pid o).1 = some usage ↔
      ∃ since, Holds pid since usage o ∧ ¬o.ttlMs.toUInt64 < now - since := by
  unfold perfOptimizerGetCachedResources Holds
  rw [if_neg (by simp [henabled])]
  dsimp only
  generalize o.cache (hashPid pid) = entry
  obtain ⟨owner, stored, lastUpdate, valid⟩ := entry
  dsimp only
  simp only [CacheEntry.mk.injEq]
  split
  · rename_i hmiss
    refine iff_of_false (by simp) ?_
    rintro ⟨since, ⟨rfl, -, -, rfl⟩, -⟩
    simp at hmiss
  · rename_i hfound
    simp only [Bool.or_eq_true, Bool.not_eq_true', bne_iff_ne, ne_eq, not_or,
      Bool.not_eq_false, Decidable.not_not] at hfound
    obtain ⟨rfl, rfl⟩ := hfound
    split
    · rename_i hold
      refine iff_of_false (by simp) ?_
      rintro ⟨since, ⟨-, -, rfl, -⟩, hfresh⟩
      exact hfresh hold
    · rename_i hfresh
      simp [hfresh]

/-- Between two readings in order, the subtraction does not wrap. -/
theorem ttl_lt_sub_iff {ttlMs : UInt32} {now : UInt64} (h : since ≤ now) :
    ttlMs.toUInt64 < now - since ↔ ttlMs.toNat < now.toNat - since.toNat := by
  rw [UInt64.lt_iff_toNat_lt, UInt64.toNat_sub_of_le now since h, UInt32.toNat_toUInt64]

/-- One call: it stores the entry itself, or leaves it unless it takes it
away. -/
theorem holds_exec (henabled : o.cacheEnabled = true) (call : CacheCall)
    (horder : Holds pid since usage o → ∀ now, call.time? = some now → since ≤ now) :
    Holds pid since usage (call.exec o) ↔
      call = .update since pid usage ∨
        (Holds pid since usage o ∧ ¬call.Takes pid since o.ttlMs) := by
  cases call with
  | update now other stored =>
      rw [CacheCall.update.injEq]
      exact holds_update henabled now other stored
  | get now other =>
      simp only [reduceCtorEq, false_or, CacheCall.exec, CacheCall.Takes]
      rw [holds_get henabled]
      refine and_congr_right fun h => ?_
      rw [ttl_lt_sub_iff (horder h now rfl)]
  | invalidate other =>
      simp only [reduceCtorEq, false_or]
      exact holds_invalidate other
  | clear =>
      simp [CacheCall.exec, CacheCall.Takes, perfOptimizerClearCache, Holds]
  | setTtl ttl =>
      simp [CacheCall.exec, CacheCall.Takes, perfOptimizerSetCacheTtl, Holds]

end Entry

/-! ## What a reader finds after any calls -/

section Sequences

variable (o : CachedOptimizer) (calls : List CacheCall)

theorem cacheAfter_snoc (call : CacheCall) :
    cacheAfter o (calls ++ [call]) = call.exec (cacheAfter o calls) := by
  unfold cacheAfter
  rw [List.foldl_append]
  rfl

theorem cacheAfter_cacheEnabled : (cacheAfter o calls).cacheEnabled = o.cacheEnabled := by
  have hinit : (perfOptimizerInitCache o).cacheEnabled = o.cacheEnabled := rfl
  unfold cacheAfter
  exact foldl_invariant (P := fun s => s.cacheEnabled = o.cacheEnabled) hinit
    (fun s call h => (exec_settings s call).1.trans h) calls

theorem cacheAfter_ttlMs : (cacheAfter o calls).ttlMs = ttlInForce calls := by
  induction calls using List.reverseRecOn with
  | nil => rfl
  | append_singleton calls call ih =>
      rw [cacheAfter_snoc, (exec_settings _ _).2, ih]
      unfold ttlInForce
      rw [List.foldl_append]
      rfl

/-- The time an entry was stored at is among the readings. -/
theorem Kept.mem_readings {pid : Int} {since : UInt64} {usage : ResourceUsage}
    {calls : List CacheCall} (h : Kept pid since usage calls) : since ∈ readings calls := by
  obtain ⟨pre, call, post, rfl, rfl, -⟩ := h
  unfold readings
  rw [List.mem_filterMap]
  exact ⟨_, List.mem_append_right _ (List.mem_cons_self ..), rfl⟩

variable {o calls}

theorem ordered_init {call : CacheCall}
    (horder : (readings (calls ++ [call])).Pairwise (· ≤ ·)) :
    (readings calls).Pairwise (· ≤ ·) := by
  unfold readings at horder ⊢
  rw [List.filterMap_append] at horder
  exact (List.pairwise_append.mp horder).1

/-- Readings that do not decrease: what is stored is not newer than the next
reading. -/
theorem since_le_of_ordered {call : CacheCall} {now since : UInt64}
    (horder : (readings (calls ++ [call])).Pairwise (· ≤ ·)) (htime : call.time? = some now)
    (hsince : since ∈ readings calls) : since ≤ now := by
  unfold readings at horder hsince
  rw [List.filterMap_append, List.pairwise_append] at horder
  refine horder.2.2 since hsince now ?_
  rw [List.mem_filterMap]
  exact ⟨call, List.mem_singleton_self call, htime⟩

/-- After any calls the entry of a pid holds exactly what the calls say it
does. -/
theorem holds_iff_kept (henabled : o.cacheEnabled = true)
    (horder : (readings calls).Pairwise (· ≤ ·)) (pid : Int) (since : UInt64)
    (usage : ResourceUsage) :
    Holds pid since usage (cacheAfter o calls) ↔ Kept pid since usage calls := by
  induction calls using List.reverseRecOn with
  | nil => exact iff_of_false (by simp [Holds, cacheAfter, perfOptimizerInitCache,
      perfOptimizerInit]) (not_sinceAt_nil _ _)
  | append_singleton calls call ih =>
      have hkept := ih (ordered_init horder)
      have htime (h : Holds pid since usage (cacheAfter o calls)) (now : UInt64)
          (hnow : call.time? = some now) : since ≤ now :=
        since_le_of_ordered horder hnow (hkept.mp h).mem_readings
      have hon : (cacheAfter o calls).cacheEnabled = true :=
        (cacheAfter_cacheEnabled o calls).trans henabled
      rw [cacheAfter_snoc, holds_exec hon call htime, hkept, cacheAfter_ttlMs, Kept, Kept,
        sinceAt_snoc]

/-- With the cache on and a clock that does not go back, a reader finds a usage
exactly when the update that stored it is the last one of the pid, nothing has
taken its entry away since, and the entry is no older than the lifetime in
force. -/
theorem cached_usage_iff_kept (henabled : o.cacheEnabled = true) (now : UInt64) (pid : Int)
    (horder : (readings (calls ++ [.get now pid])).Pairwise (· ≤ ·)) (usage : ResourceUsage) :
    (perfOptimizerGetCachedResources now pid (cacheAfter o calls)).1 = some usage ↔
      ∃ since, Kept pid since usage calls ∧
        now.toNat - since.toNat ≤ (ttlInForce calls).toNat := by
  have hon : (cacheAfter o calls).cacheEnabled = true :=
    (cacheAfter_cacheEnabled o calls).trans henabled
  rw [get_eq_some_iff hon]
  refine exists_congr fun since => ?_
  rw [holds_iff_kept henabled (ordered_init horder), cacheAfter_ttlMs]
  refine and_congr_right fun hkept => ?_
  rw [ttl_lt_sub_iff (since_le_of_ordered horder rfl hkept.mem_readings), not_lt]

end Sequences

/-- The statics when the library is loaded. -/
def loadedCache : CachedOptimizer where
  toPerfOptimizer := loadedOptimizer
  ttlMs := 0
  cacheStats := ⟨0, 0, 0, 0⟩

/-- Two pids are stored, one is read, and the other invalidated. -/
def twoPids : List CacheCall :=
  [.setTtl 2000, .update 500 7 ⟨3, 1, 4096⟩, .update 600 8 ⟨1, 0, 0⟩, .get 900 7, .invalidate 8]

/-- One second after an update, with the lifetime raised to two, the pid is
found. -/
theorem cached_usage_within_ttl :
    (perfOptimizerGetCachedResources 1500 7 (cacheAfter loadedCache twoPids)).1 =
      some ⟨3, 1, 4096⟩ := by
  have hstored : Kept 7 500 ⟨3, 1, 4096⟩ [.setTtl 2000, .update 500 7 ⟨3, 1, 4096⟩] :=
    (sinceAt_snoc _ _ [_] _).mpr (.inl rfl)
  have hother := (sinceAt_snoc _ _ _ (.update 600 8 ⟨1, 0, 0⟩)).mpr (.inr ⟨hstored, by decide⟩)
  have hread := (sinceAt_snoc _ _ _ (.get 900 7)).mpr (.inr ⟨hother, by decide⟩)
  have hkept := (sinceAt_snoc _ _ _ (.invalidate 8)).mpr (.inr ⟨hread, by decide⟩)
  exact (cached_usage_iff_kept rfl 1500 7 (by decide) _).mpr ⟨500, hkept, by decide⟩

end MtRdma.Ports.ResourceCache
