import MtRdma.Verified.LockedSections
import MtRdma.Ports.ResourceCache

/-!
# The entries of the cache, access by access (`performance_optimizer.c`)

`ResourceCache` is about the calls of one thread.  In the library every thread
of the application calls the cache, and a usage record is copied one field after
the other, so that a reader could find half of one record and half of another,
or the record of a pid whose entry was just taken over.

Each entry has a spin lock.  A reader first looks at `valid` and `pid` without
it, and gives up if they do not fit; otherwise it takes the lock and looks
again.  The entry is therefore only read and written under its lock, and the
glance before can make a reader give up but not go wrong: in every interleaving
of the accesses a hit returns the record of one update of its pid, the last one
before it in the order of the lock, and nothing has taken the entry away since
(`cache_hits_exact`).

The entries are independent of each other, as no function holds two locks or
looks at two entries at once.  So one entry is modelled, with the calls for the
pids that hash to it.  What a call finds on the clock and as the lifetime are
arguments of the call here; `CacheLifetime` is about the lifetime.
-/

namespace MtRdma.Ports.CacheSections

open Verified.AccessCode
open Verified.LockedSections
open Verified.Runs
open SharedMemory
open PerformanceOptimizer
open ResourceCache

/-! ## The calls as single steps -/

/-- The calls on one entry, with the clock reading and the lifetime that a reader
gets. -/
inductive EntryCall where
  | get (now : UInt64) (ttlMs : UInt32) (pid : Int)
  | update (now : UInt64) (pid : Int) (usage : ResourceUsage)
  | invalidate (pid : Int)
  | clear

/-- What a call does to the entry; the answer of a reader that misses is `none`,
as is that of the other calls. -/
def EntryCall.exec (call : EntryCall) (e : CacheEntry) : Option ResourceUsage × CacheEntry :=
  match call with
  | get now ttlMs pid =>
      if !e.valid || e.pid != pid then (none, e)
      else if ttlMs.toUInt64 < now - e.lastUpdate then (none, { e with valid := false })
      else (some e.usage, e)
  | update now pid usage => (none, ⟨pid, usage, now, true⟩)
  | invalidate pid => (none, if e.pid = pid then { e with valid := false } else e)
  | clear => (none, { e with valid := false })

/-- What a call of the cache is to the entry `i`, if it comes to it at all. -/
def onEntry (i : Fin cacheBucketCount) (ttlMs : UInt32) : CacheCall → Option EntryCall
  | .update now pid usage => if hashPid pid = i then some (.update now pid usage) else none
  | .get now pid => if hashPid pid = i then some (.get now ttlMs pid) else none
  | .invalidate pid => if hashPid pid = i then some (.invalidate pid) else none
  | .clear => some .clear
  | .setTtl _ => none

/-- The entries of the cache under the calls of `ResourceCache`. -/
theorem cache_exec {o : CachedOptimizer} (henabled : o.cacheEnabled = true) (call : CacheCall)
    (i : Fin cacheBucketCount) :
    (call.exec o).cache i = ((onEntry i o.ttlMs call).elim (o.cache i) fun c =>
      (c.exec (o.cache i)).2) := by
  -- a write to the entry of `pid`, seen from entry `i`
  have hwrite : ∀ (pid : Int) (e : CacheEntry) (c : EntryCall),
      (c.exec (o.cache (hashPid pid))).2 = e → Function.update o.cache (hashPid pid) e i =
        ((if hashPid pid = i then some c else none).elim (o.cache i) fun c =>
          (c.exec (o.cache i)).2) := by
    rintro pid _ c rfl
    by_cases hi : hashPid pid = i
    · subst hi
      simp
    · rw [Function.update_of_ne (Ne.symm hi), if_neg hi]
      rfl
  have hkeep : ∀ pid : Int, o.cache i =
      Function.update o.cache (hashPid pid) (o.cache (hashPid pid)) i := by
    intro pid
    rw [Function.update_eq_self]
  cases call with
  | update now pid usage =>
      simp only [CacheCall.exec, updateCachedResources_cache henabled, onEntry]
      exact hwrite pid _ _ rfl
  | get now pid =>
      rw [onEntry, ← hwrite pid _ (.get now o.ttlMs pid) rfl, CacheCall.exec,
        perfOptimizerGetCachedResources, if_neg (by simp [henabled])]
      simp only [EntryCall.exec]
      split_ifs
      · exact hkeep pid
      · rfl
      · exact hkeep pid
  | invalidate pid =>
      rw [onEntry, ← hwrite pid _ (.invalidate pid) rfl, CacheCall.exec,
        perfOptimizerInvalidateCache]
      simp only [EntryCall.exec]
      split_ifs
      · rfl
      · exact hkeep pid
  | clear | setTtl => rfl

/-- A reader returns what its entry holds. -/
theorem get_exec {o : CachedOptimizer} (henabled : o.cacheEnabled = true) (now : UInt64)
    (pid : Int) : (perfOptimizerGetCachedResources now pid o).1 =
      (EntryCall.exec (.get now o.ttlMs pid) (o.cache (hashPid pid))).1 := by
  unfold perfOptimizerGetCachedResources EntryCall.exec
  rw [if_neg (by simp [henabled])]
  dsimp only
  split_ifs <;> rfl

/-! ## The accesses -/

/-- The look of `perf_optimizer_get_cached_resources` before it takes the lock. -/
def glanceGet (pid : Int) : Code CacheEntry (Option (Option ResourceUsage)) := do
  let valid ← .read CacheEntry.valid
  if !valid then return some none
  let owner ← .read CacheEntry.pid
  if owner != pid then return some none
  return none

/-- `perf_optimizer_get_cached_resources` under the lock. -/
def getSection (now : UInt64) (ttlMs : UInt32) (pid : Int) :
    Code CacheEntry (Option ResourceUsage) := do
  let valid ← .read CacheEntry.valid
  if !valid then return none
  let owner ← .read CacheEntry.pid
  if owner != pid then return none
  let lastUpdate ← .read CacheEntry.lastUpdate
  if ttlMs.toUInt64 < now - lastUpdate then
    .write fun e => { e with valid := false }
    return none
  -- the `memcpy`
  let qpCount ← .read fun e => e.usage.qpCount
  let mrCount ← .read fun e => e.usage.mrCount
  let memoryUsed ← .read fun e => e.usage.memoryUsed
  return some ⟨qpCount, mrCount, memoryUsed⟩

/-- `perf_optimizer_update_cached_resources` under the lock. -/
def updateSection (now : UInt64) (pid : Int) (usage : ResourceUsage) :
    Code CacheEntry (Option ResourceUsage) := do
  .write fun e => { e with pid := pid }
  .write fun e => { e with usage.qpCount := usage.qpCount }
  .write fun e => { e with usage.mrCount := usage.mrCount }
  .write fun e => { e with usage.memoryUsed := usage.memoryUsed }
  .write fun e => { e with lastUpdate := now }
  .write fun e => { e with valid := true }
  return none

/-- `perf_optimizer_invalidate_cache` under the lock. -/
def invalidateSection (pid : Int) : Code CacheEntry (Option ResourceUsage) := do
  let owner ← .read CacheEntry.pid
  if owner = pid then .write fun e => { e with valid := false }
  return none

/-- `perf_optimizer_clear_cache` when it comes to the entry. -/
def clearSection : Code CacheEntry (Option ResourceUsage) := do
  .write fun e => { e with valid := false }
  return none

/-- Only readers look before they take the lock. -/
def glance : EntryCall → Code CacheEntry (Option (Option ResourceUsage))
  | .get _ _ pid => glanceGet pid
  | _ => pure none

def entryBody : EntryCall → Body CacheEntry (Option ResourceUsage)
  | .get now ttlMs pid => .locked (getSection now ttlMs pid)
  | .update now pid usage => .locked (updateSection now pid usage)
  | .invalidate pid => .locked (invalidateSection pid)
  | .clear => .locked clearSection

theorem run_getSection (now : UInt64) (ttlMs : UInt32) (pid : Int) (e : CacheEntry) :
    (getSection now ttlMs pid).run e = EntryCall.exec (.get now ttlMs pid) e := by
  by_cases hvalid : e.valid
  · by_cases howner : e.pid = pid
    · by_cases hold : ttlMs.toUInt64 < now - e.lastUpdate
      · simp [getSection, EntryCall.exec, hvalid, howner, hold]
      · simp [getSection, EntryCall.exec, hvalid, howner, hold]
    · simp [getSection, EntryCall.exec, hvalid, howner]
  · simp [getSection, EntryCall.exec, hvalid]

theorem entryBody_implements : Implements entryBody EntryCall.exec where
  refused := by
    intro call b h
    cases call <;> cases h
  locked := by
    intro call code h e
    cases call with
    | get now ttlMs pid =>
        obtain rfl := Body.locked.inj h
        exact run_getSection now ttlMs pid e
    | update now pid usage =>
        obtain rfl := Body.locked.inj h
        rfl
    | invalidate pid =>
        obtain rfl := Body.locked.inj h
        by_cases howner : e.pid = pid
        · simp [invalidateSection, EntryCall.exec, howner]
        · simp [invalidateSection, EntryCall.exec, howner]
    | clear =>
        obtain rfl := Body.locked.inj h
        rfl

/-! ## What a reader finds -/

/-- What takes the entry away that an update of `pid` stored at `since`. -/
def EntryCall.Takes (pid : Int) (since : UInt64) : EntryCall → Prop
  | get now ttlMs other => other = pid ∧ ttlMs.toUInt64 < now - since
  | update _ _ _ => True
  | invalidate other => other = pid
  | clear => True

/-- What a call leaves to find for `pid`: its own record, or the one it found if
it does not take it away. -/
theorem exec_eq_stored_iff (call : EntryCall) (e : CacheEntry) (pid : Int) (usage : ResourceUsage)
    (since : UInt64) :
    (call.exec e).2 = ⟨pid, usage, since, true⟩ ↔
      call = .update since pid usage ∨
        (e = ⟨pid, usage, since, true⟩ ∧ ¬call.Takes pid since) := by
  obtain ⟨owner, stored, lastUpdate, valid⟩ := e
  cases call with
  | get now ttlMs other =>
      simp only [EntryCall.exec, EntryCall.Takes]
      split_ifs with hmiss hold
      · grind
      · grind
      · grind
  | update now other stored =>
      simp only [EntryCall.exec, EntryCall.Takes]
      grind
  | invalidate other =>
      simp only [EntryCall.exec, EntryCall.Takes]
      split_ifs with howner
      · grind
      · grind
  | clear => simp [EntryCall.exec, EntryCall.Takes]

/-- A call of some thread, with its answer. -/
abbrev Completed (ι : Type) := ι × EntryCall × Option ResourceUsage

/-- The update that stored `usage` for `pid` at `since` is the last one, and
nothing after it has taken the entry away. -/
def Stored {ι : Type} (pid : Int) (since : UInt64) (usage : ResourceUsage)
    (calls : List (Completed ι)) : Prop :=
  Since (fun call => call.2.1 = .update since pid usage) (fun call => call.2.1.Takes pid since)
    calls

/-- The entry after `perf_optimizer_init`. -/
def blankEntry : CacheEntry := ⟨0, .zero, 0, false⟩

theorem stored_iff {ι : Type} {calls : List (Completed ι)} {e : CacheEntry}
    (hrun : Run (Atomic EntryCall.exec) blankEntry calls e) (pid : Int) (since : UInt64)
    (usage : ResourceUsage) :
    e = ⟨pid, usage, since, true⟩ ↔ Stored pid since usage calls := by
  refine hrun.history (P := fun calls e =>
    e = ⟨pid, usage, since, true⟩ ↔ Stored pid since usage calls) ?_ ?_
  · refine iff_of_false ?_ (not_since_nil _ _)
    simp [blankEntry]
  · intro calls call e₁ e₂ hbefore hcall
    have hafter : (call.2.1.exec e₁).2 = e₂ := congrArg Prod.snd hcall
    rw [Stored, since_snoc, ← hafter, exec_eq_stored_iff, hbefore]
    rfl

/-- A reader that finds something found the record of its pid, and not too old. -/
theorem exec_get_eq_some {now : UInt64} {ttlMs : UInt32} {pid : Int} {usage : ResourceUsage}
    {e e' : CacheEntry} (h : EntryCall.exec (.get now ttlMs pid) e = (some usage, e')) :
    e = ⟨pid, usage, e.lastUpdate, true⟩ ∧ ¬ttlMs.toUInt64 < now - e.lastUpdate := by
  obtain ⟨owner, stored, lastUpdate, valid⟩ := e
  simp only [EntryCall.exec] at h
  split_ifs at h with hmiss hold
  · grind
  · grind
  · grind

/-- All that a glance answers is that there is nothing. -/
theorem glance_always (call : EntryCall) :
    (glance call).Answers (fun _ => True) fun answer =>
      ∀ found, answer = some found → found = none := by
  cases call with
  | get now ttlMs pid => simp [glance, glanceGet]
  | update => exact nofun
  | invalidate => exact nofun
  | clear => exact nofun

section Results

variable {ι : Type} [DecidableEq ι]
  {labels : List (ι × GlanceEvent EntryCall (Option ResourceUsage))}
  {c : GlanceState ι CacheEntry EntryCall (Option ResourceUsage)}

/-- The update that a hit comes from. -/
theorem hit_stored (hrun : Run (GlanceStep glance entryBody) (startGlances blankEntry) labels c)
    {before after : List (Completed ι)} {i : ι} {now : UInt64} {ttlMs : UInt32} {pid : Int}
    {usage : ResourceUsage} (hcompleted : completed (labels.filterMap sectionLabel) =
      before ++ (i, .get now ttlMs pid, some usage) :: after) :
    ∃ since, Stored pid since usage before ∧ ¬ttlMs.toUInt64 < now - since := by
  obtain ⟨e, hcalls, -⟩ := calls_atomic entryBody_implements (glances_refine hrun)
  rw [hcompleted, List.append_cons] at hcalls
  obtain ⟨e', hget⟩ := hcalls.of_append
  obtain ⟨found, hbefore, hfound⟩ := hget.last
  obtain ⟨hstored, hfresh⟩ := exec_get_eq_some hfound
  exact ⟨found.lastUpdate, (stored_iff hbefore pid _ usage).mp hstored, hfresh⟩

/-- **Hits are exact.**  However the accesses of the threads to an entry are
interleaved, the reader of a hit returns the record of one update of its pid as
a whole.  In the order of the lock this update comes before, nothing has taken
the entry away since, and it is no older than the lifetime that the reader got.
What readers see without the lock only makes them give up. -/
theorem cache_hits_exact
    (hrun : Run (GlanceStep glance entryBody) (startGlances blankEntry) labels c) :
    (∀ before i now ttlMs pid usage after,
      completed (labels.filterMap sectionLabel) =
          before ++ (i, .get now ttlMs pid, some usage) :: after →
        ∃ since, Stored pid since usage before ∧ ¬ttlMs.toUInt64 < now - since) ∧
      ∀ i call answer, (i, .answered call answer) ∈ labels → answer = none := by
  constructor
  · intro before i now ttlMs pid usage after hcompleted
    exact hit_stored hrun hcompleted
  · intro i call answer hmem
    exact glance_answers glance_always hrun hmem answer rfl

end Results

/-- A thread stores the usage of a process, and another one finds it two
milliseconds later. -/
theorem sharedHit_run :
    ∃ (labels : List (Fin 2 × GlanceEvent EntryCall (Option ResourceUsage)))
      (c : GlanceState (Fin 2) CacheEntry EntryCall (Option ResourceUsage)),
      Run (GlanceStep glance entryBody) (startGlances blankEntry) labels c ∧
        completed (labels.filterMap sectionLabel) =
          [(0, .update 5 7 ⟨1, 2, 3⟩, none), (1, .get 7 100 7, some ⟨1, 2, 3⟩)] := by
  have hupdate : entryBody (.update 5 7 ⟨1, 2, 3⟩) = .locked (updateSection 5 7 ⟨1, 2, 3⟩) := rfl
  have hget : entryBody (.get 7 100 7) = .locked (getSection 7 100 7) := rfl
  have hunseen : (glance (.update 5 7 ⟨1, 2, 3⟩)).seen (List.replicate 0 blankEntry) =
      some (none, []) := rfl
  have hseen : (glance (.get 7 100 7)).seen (List.replicate 2 ⟨7, ⟨1, 2, 3⟩, 5, true⟩) =
      some (none, []) := rfl
  obtain ⟨stores, hstores, hstored⟩ :=
    glance_call_completes (i := (0 : Fin 2)) hupdate (c := startGlances blankEntry) rfl rfl hunseen
  obtain ⟨gets, hgets, hgot⟩ := glance_call_completes (i := (1 : Fin 2)) hget
    (c := ⟨⟨false, ⟨7, ⟨1, 2, 3⟩, 5, true⟩⟩, fun _ => .past .idle⟩) rfl rfl hseen
  refine ⟨stores ++ gets, _, hstores.append hgets, ?_⟩
  rw [List.filterMap_append, completed, List.filterMap_append]
  show completed _ ++ completed (gets.filterMap sectionLabel) = _
  rw [hstored, hgot]
  rfl

theorem cache_hits_exact_shared :
    ∃ labels : List (Fin 2 × GlanceEvent EntryCall (Option ResourceUsage)),
      completed (labels.filterMap sectionLabel) =
          [(0, .update 5 7 ⟨1, 2, 3⟩, none), (1, .get 7 100 7, some ⟨1, 2, 3⟩)] ∧
        ∃ since, Stored 7 since ⟨1, 2, 3⟩ [((0 : Fin 2), .update 5 7 ⟨1, 2, 3⟩, none)] ∧
          ¬(100 : UInt32).toUInt64 < 7 - since := by
  obtain ⟨labels, c, hrun, hcompleted⟩ := sharedHit_run
  exact ⟨labels, hcompleted, (cache_hits_exact hrun).1 [_] 1 7 100 7 _ [] hcompleted⟩

end MtRdma.Ports.CacheSections
