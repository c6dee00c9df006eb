import MtRdma.Verified.Runs
import MtRdma.Ports.BatchUpdates

/-!
# Switching batching on and off

One thread updates usages, flushes, and switches batching on and off; the
flush thread may wake up between its calls.  With batching off an update goes
straight to the table, past the buffer.  An older update of the same pid that
is still in the buffer is written over it by the next flush, which may be the
one of `perf_optimizer_cleanup`.

If no direct update overtakes a buffered one of its pid, the update that is
stored in the end is the last one.
-/

namespace MtRdma.Ports.PerformanceOptimizer

open Verified.Runs
open Verified.SlotScan
open Verified.WriteBuffer
open SharedMemory

/-! ## The calls -/

/-- What the thread calls, and the flush thread between two calls. -/
inductive ToggleCall where
  | update (now : UInt64) (pid : Int) (usage : ResourceUsage)
  | enable (on : Bool)
  | flush
  | wakeup

namespace ToggleCall

def exec (start : Int → UInt64) (x : PerfOptimizer × SharedMemoryData) :
    ToggleCall → PerfOptimizer × SharedMemoryData
  | .update now pid usage => (perfOptimizerBatchUpdateResource start now pid usage x.1 x.2).2
  | .enable on => (perfOptimizerEnableBatching on x.1, x.2)
  | .flush => perfOptimizerFlushBatchBuffer start x.1 x.2
  | .wakeup => flushThreadWakes start x.1 x.2

/-- A call is one step of the thread. -/
def Step (start : Int → UInt64) (x : PerfOptimizer × SharedMemoryData) (c : ToggleCall)
    (x' : PerfOptimizer × SharedMemoryData) : Prop :=
  x' = c.exec start x

/-- A direct update finds no older one of its pid in the buffer. -/
def NotOvertaking (x : PerfOptimizer × SharedMemoryData) : ToggleCall → Prop
  | .update _ pid _ => x.1.batchingEnabled = false → pid ∉ x.1.buffer.pids
  | _ => True

/-- The pid of an update. -/
def pid? : ToggleCall → Option Int
  | .update _ pid _ => some pid
  | _ => none

/-- What the call asks to be stored. -/
def record (last : Int → Option ResourceUsage) : ToggleCall → Int → Option ResourceUsage
  | .update _ pid usage => Function.update last pid (some usage)
  | _ => last

end ToggleCall

/-- The usage passed in the last update of each pid. -/
def lastUpdates (calls : List ToggleCall) : Int → Option ResourceUsage :=
  calls.foldl ToggleCall.record fun _ => none

/-- The pids that are updated, as far as they are pids. -/
def updatedPids (calls : List ToggleCall) : Finset Int :=
  (calls.filterMap ToggleCall.pid?).toFinset.filter (0 < ·)

theorem pos_of_mem_updatedPids {calls : List ToggleCall} {p : Int} (h : p ∈ updatedPids calls) :
    0 < p :=
  (Finset.mem_filter.mp h).2

theorem lastUpdates_snoc (calls : List ToggleCall) (c : ToggleCall) :
    lastUpdates (calls ++ [c]) = c.record (lastUpdates calls) := by
  unfold lastUpdates
  rw [List.foldl_append]
  rfl

theorem updatedPids_snoc (calls : List ToggleCall) (c : ToggleCall) :
    updatedPids calls ⊆ updatedPids (calls ++ [c]) ∧
      ∀ pid, c.pid? = some pid → 0 < pid → pid ∈ updatedPids (calls ++ [c]) := by
  unfold updatedPids
  rw [List.filterMap_append, List.toFinset_append]
  constructor
  · exact Finset.filter_subset_filter _ Finset.subset_union_left
  · intro pid hpid hpos
    simp [hpid, hpos]

/-! ## What the buffer and the table hold -/

/-- The last update of a pid is in the buffer, or, if the buffer has none of
the pid, in the table. -/
structure Keeps (pids : Finset Int) (last : Int → Option ResourceUsage)
    (x : PerfOptimizer × SharedMemoryData) : Prop where
  room : RoomFor pids x.2
  known : ∀ pid ∈ x.1.buffer.pids, 0 < pid → pid ∈ pids
  pending : ∀ pid usage, (pid, usage) ∈ x.1.buffer.pending → last pid = some usage
  written : ∀ pid, 0 < pid → pid ∉ x.1.buffer.pids → ∀ usage, last pid = some usage →
    (usageMap x.2).get pid = some usage

section Keeps

variable {start : Int → UInt64} {pids : Finset Int} {last : Int → Option ResourceUsage}
  {x : PerfOptimizer × SharedMemoryData} {o' : PerfOptimizer} {pid : Int} {usage : ResourceUsage}

theorem pids_of_pending_nil {b : BatchBuffer} (hempty : b.pending = []) : b.pids = [] := by
  unfold BatchBuffer.pids
  rw [hempty]
  rfl

/-- After the buffer has been written out the table holds every last update. -/
theorem Keeps.get_drain (h : Keeps pids last x) (hpids : ∀ p ∈ pids, 0 < p) (hpos : 0 < pid)
    (hlast : last pid = some usage) :
    (usageMap (drain (updateTable start) x.1.buffer.pending x.2)).get pid = some usage := by
  by_cases hmem : pid ∈ x.1.buffer.pids
  · obtain ⟨⟨q, u⟩, he, rfl⟩ := List.mem_map.mp hmem
    have hu : last q = some u := h.pending q u he
    rw [hu, Option.some.injEq] at hlast
    subst hlast
    exact get_drain_of_roomFor x.1.buffer.merged h.room hpids h.known hpos he
  · rw [get_drain_of_not_mem hpos hmem]
    exact h.written pid hpos hmem usage hlast

/-- The buffer is written out. -/
theorem Keeps.flushed (h : Keeps pids last x) (hpids : ∀ p ∈ pids, 0 < p)
    (hempty : o'.buffer.pending = []) :
    Keeps pids last (o', drain (updateTable start) x.1.buffer.pending x.2) := by
  have hnone := pids_of_pending_nil hempty
  refine ⟨h.room.drain hpids h.known, ?_, ?_, ?_⟩
  · intro q hq
    rw [hnone] at hq
    cases hq
  · intro q u hu
    rw [hempty] at hu
    cases hu
  · intro q hq _ u hu
    exact h.get_drain hpids hq hu

/-- An update is put into the buffer. -/
theorem Keeps.put (h : Keeps pids last x) (hmem : 0 < pid → pid ∈ pids)
    (hput : o'.buffer.pending = put pid usage x.1.buffer.pending) :
    Keeps pids (Function.update last pid (some usage)) (o', x.2) := by
  have hkeys : ∀ q, q ∈ o'.buffer.pids ↔ q = pid ∨ q ∈ x.1.buffer.pids := by
    intro q
    unfold BatchBuffer.pids
    rw [hput, keys_put]
    split
    · rename_i hin
      exact ⟨.inr, fun h => h.elim (fun heq => heq ▸ hin) id⟩
    · rw [List.mem_append, List.mem_singleton, or_comm]
  refine ⟨h.room, ?_, ?_, ?_⟩
  · intro q hq
    rcases (hkeys q).mp hq with rfl | hq
    · exact hmem
    · exact h.known q hq
  · intro q u hu
    rw [hput] at hu
    by_cases hqp : q = pid
    · subst hqp
      rw [Function.update_self]
      -- the buffer has one update per pid
      have hself := mem_put_self q usage x.1.buffer.pending
      have hsame := List.inj_on_of_nodup_map (x.1.buffer.merged.put q usage) hself hu rfl
      rw [(Prod.mk.inj hsame).2]
    · rw [mem_put_of_ne hqp] at hu
      rw [Function.update_of_ne hqp]
      exact h.pending q u hu
  · intro q hq hnot u hu
    have hboth := (hkeys q).not.mp hnot
    rw [not_or] at hboth
    rw [Function.update_of_ne hboth.1] at hu
    exact h.written q hq hboth.2 u hu

/-- An update goes straight to the table. -/
theorem Keeps.direct (h : Keeps pids last x) (hpids : ∀ p ∈ pids, 0 < p)
    (hmem : 0 < pid → pid ∈ pids) (hnot : pid ∉ x.1.buffer.pids) :
    Keeps pids (Function.update last pid (some usage))
      (x.1, updateTable start pid usage x.2) := by
  refine ⟨h.room.update hpids hmem, h.known, ?_, ?_⟩
  · intro q u hu
    have hqp : q ≠ pid := by
      rintro rfl
      exact hnot (List.mem_map_of_mem hu)
    rw [Function.update_of_ne hqp]
    exact h.pending q u hu
  · intro q hq hqnot u hu
    by_cases hqp : q = pid
    · subst hqp
      rw [Function.update_self] at hu
      obtain ⟨i, hslot⟩ := h.room.slotFor (hmem hq) hq
      rw [get_update_self hslot]
      exact hu
    · rw [Function.update_of_ne hqp] at hu
      rw [get_update_of_ne hq hqp]
      exact h.written q hq hqnot u hu

theorem Keeps.flush (h : Keeps pids last x) (hpids : ∀ p ∈ pids, 0 < p) :
    Keeps pids last (perfOptimizerFlushBatchBuffer start x.1 x.2) := by
  have hsplit : perfOptimizerFlushBatchBuffer start x.1 x.2 =
      ((perfOptimizerFlushBatchBuffer start x.1 x.2).1,
        drain (updateTable start) x.1.buffer.pending x.2) := Prod.ext rfl flush_table
  rw [hsplit]
  exact h.flushed hpids flush_pending

/-- An update made with batching on. -/
theorem Keeps.batched (h : Keeps pids last x) (hpids : ∀ p ∈ pids, 0 < p)
    (hmem : 0 < pid → pid ∈ pids) (hon : x.1.batchingEnabled = true) (now : UInt64) :
    Keeps pids (Function.update last pid (some usage))
      (perfOptimizerBatchUpdateResource start now pid usage x.1 x.2).2 := by
  have houtcome : BatchOutcome start pid usage x.1 x.2
      (perfOptimizerBatchUpdateResource start now pid usage x.1 x.2).2 :=
    (batchUpdate_outcome now pid usage hon).2.2
  generalize (perfOptimizerBatchUpdateResource start now pid usage x.1 x.2).2 = y at houtcome
  cases houtcome with
  | inserted hput => exact h.put hmem hput
  | @restarted o' hpending =>
      -- the buffer is written out, and the update is the first one in it
      have hflushed : Keeps pids last ({ o' with buffer := .empty },
          drain (updateTable start) x.1.buffer.pending x.2) := h.flushed hpids rfl
      exact hflushed.put hmem hpending

/-- One call. -/
theorem Keeps.exec (h : Keeps pids last x) (hpids : ∀ p ∈ pids, 0 < p) {c : ToggleCall}
    (hmem : ∀ pid, c.pid? = some pid → 0 < pid → pid ∈ pids) (hok : c.NotOvertaking x) :
    Keeps pids (c.record last) (c.exec start x) := by
  cases c with
  | enable on => exact ⟨h.room, h.known, h.pending, h.written⟩
  | flush => exact h.flush hpids
  | wakeup =>
      show Keeps pids last (flushThreadWakes start x.1 x.2)
      unfold flushThreadWakes
      split
      · exact h.flush hpids
      · exact h
  | update now pid usage =>
      show Keeps pids (Function.update last pid (some usage))
        (perfOptimizerBatchUpdateResource start now pid usage x.1 x.2).2
      cases hon : x.1.batchingEnabled with
      | false =>
          have hdirect : (perfOptimizerBatchUpdateResource start now pid usage x.1 x.2).2 =
              (x.1, updateTable start pid usage x.2) := by
            unfold perfOptimizerBatchUpdateResource
            rw [if_pos (by simp [hon])]
            rfl
          rw [hdirect]
          exact h.direct hpids (hmem pid rfl) (hok hon)
      | true => exact h.batched hpids (hmem pid rfl) hon now

end Keeps

theorem Keeps.start {o : PerfOptimizer} {s : SharedMemoryData} {pids : Finset Int}
    (hempty : o.buffer.pending = []) (hroom : RoomFor pids s) :
    Keeps pids (lastUpdates []) (o, s) := by
  have hnone := pids_of_pending_nil hempty
  refine ⟨hroom, ?_, ?_, ?_⟩
  · intro q hq
    rw [hnone] at hq
    cases hq
  · intro q u hu
    rw [hempty] at hu
    cases hu
  · intro q _ _ u hu
    cases hu

/-! ## Two updates of one pid -/

/-- The optimizer as `perf_optimizer_init` leaves it, and a new table. -/
def initialized : PerfOptimizer × SharedMemoryData := (perfOptimizerInit loadedOptimizer, zeroed)

/-- The start time of every process. -/
def startTimes : Int → UInt64 := fun _ => 7

def bufferedUpdate : ToggleCall := .update 0 100 ⟨1, 0, 0⟩

def secondUpdate : ToggleCall := .update 1 100 ⟨2, 0, 0⟩

/-- The first update of a pid stays in the buffer. -/
theorem bufferedUpdate_exec :
    (bufferedUpdate.exec startTimes initialized).1.batchingEnabled = true ∧
      (bufferedUpdate.exec startTimes initialized).1.buffer.pending = [(100, ⟨1, 0, 0⟩)] ∧
      (bufferedUpdate.exec startTimes initialized).2 = zeroed := by
  obtain ⟨-, hon, houtcome⟩ : _ ∧ _ ∧ BatchOutcome startTimes 100 ⟨1, 0, 0⟩ initialized.1
      initialized.2 (bufferedUpdate.exec startTimes initialized) :=
    batchUpdate_outcome 0 100 ⟨1, 0, 0⟩ rfl
  refine ⟨hon, ?_⟩
  generalize bufferedUpdate.exec startTimes initialized = y at houtcome
  cases houtcome with
  | inserted hput => exact ⟨hput, rfl⟩
  | restarted hpending => exact ⟨hpending, rfl⟩

/-- **The last write wins if none is overtaken.**  In a run in which no direct
update finds an older one of its pid in the buffer, with a table that has room
for the pids, the usage stored after `perf_optimizer_cleanup` is the one of the
last update. -/
theorem last_write_wins (start : Int → UInt64) (o : PerfOptimizer) (s : SharedMemoryData)
    (calls : List ToggleCall) (x : PerfOptimizer × SharedMemoryData)
    (hempty : o.buffer.pending = []) (hroom : RoomFor (updatedPids calls) s)
    (hrun : Run (fun x c x' => c.NotOvertaking x ∧ c.Step start x x') (o, s) calls x)
    (pid : Int) (hpos : 0 < pid) (usage : ResourceUsage)
    (hlast : lastUpdates calls pid = some usage) :
    (usageMap (perfOptimizerCleanup start x.1 x.2).2).get pid = some usage := by
  have hkeeps : Keeps (updatedPids calls) (lastUpdates calls) x := by
    refine hrun.history (P := fun made x => updatedPids made ⊆ updatedPids calls →
      Keeps (updatedPids calls) (lastUpdates made) x) (fun _ => .start hempty hroom) ?_ subset_rfl
    intro made c x₁ x₂ ih hstep hsub
    obtain ⟨hbefore, hpid⟩ := updatedPids_snoc made c
    rw [hstep.2, lastUpdates_snoc]
    exact (ih (hbefore.trans hsub)).exec (fun _ => pos_of_mem_updatedPids)
      (fun q hq h0 => hsub (hpid q hq h0)) hstep.1
  unfold perfOptimizerCleanup
  rw [flush_table]
  exact hkeeps.get_drain (fun _ => pos_of_mem_updatedPids) hpos hlast

/-- A flush between the two updates. -/
def flushedBetween : List ToggleCall := [bufferedUpdate, .flush, .enable false, secondUpdate]

def afterFlush : PerfOptimizer × SharedMemoryData :=
  ToggleCall.flush.exec startTimes (bufferedUpdate.exec startTimes initialized)

def afterDirect : PerfOptimizer × SharedMemoryData :=
  secondUpdate.exec startTimes ((ToggleCall.enable false).exec startTimes afterFlush)

theorem flushedBetween_run :
    Run (fun x c x' => c.NotOvertaking x ∧ c.Step startTimes x x') initialized flushedBetween
      afterDirect := by
  have hempty : (100 : Int) ∉ afterFlush.1.buffer.pids := by
    have hpending : afterFlush.1.buffer.pending = [] := flush_pending
    unfold BatchBuffer.pids
    rw [hpending]
    exact List.not_mem_nil
  have hfirst : bufferedUpdate.NotOvertaking initialized := fun hoff => nomatch hoff
  have hsecond : secondUpdate.NotOvertaking
      ((ToggleCall.enable false).exec startTimes afterFlush) := fun _ => hempty
  exact .snoc (.snoc (.snoc (.snoc .start ⟨hfirst, rfl⟩) ⟨trivial, rfl⟩) ⟨trivial, rfl⟩)
    ⟨hsecond, rfl⟩

theorem last_write_wins_after_flush :
    RoomFor (updatedPids flushedBetween) initialized.2 ∧
      Run (fun x c x' => c.NotOvertaking x ∧ c.Step startTimes x x') initialized flushedBetween
        afterDirect ∧
      (usageMap (perfOptimizerCleanup startTimes afterDirect.1 afterDirect.2).2).get 100 =
        some ⟨2, 0, 0⟩ :=
  have hroom : RoomFor (updatedPids flushedBetween) initialized.2 :=
    RoomFor.zeroed (by rw [maxProcesses_eq]; decide)
  ⟨hroom, flushedBetween_run, last_write_wins startTimes initialized.1 initialized.2 flushedBetween
    afterDirect rfl hroom flushedBetween_run 100 (by decide) ⟨2, 0, 0⟩ rfl⟩

/-- No flush between the two updates: the table ends up with the first one. -/
def overtaken : List ToggleCall := [bufferedUpdate, .enable false, secondUpdate]

def afterOvertaking : PerfOptimizer × SharedMemoryData :=
  secondUpdate.exec startTimes ((ToggleCall.enable false).exec startTimes
    (bufferedUpdate.exec startTimes initialized))

theorem overtaken_update_lost :
    RoomFor (updatedPids overtaken) initialized.2 ∧
      Run (fun x c x' => c.Step startTimes x x') initialized overtaken afterOvertaking ∧
      lastUpdates overtaken 100 = some ⟨2, 0, 0⟩ ∧
      (usageMap (perfOptimizerCleanup startTimes afterOvertaking.1 afterOvertaking.2).2).get 100 =
        some ⟨1, 0, 0⟩ := by
  obtain ⟨_, hpending, htable⟩ := bufferedUpdate_exec
  have hroom : RoomFor (updatedPids overtaken) initialized.2 :=
    RoomFor.zeroed (by rw [maxProcesses_eq]; decide)
  obtain ⟨i, hslot⟩ := hroom.slotFor (k := 100) (by decide) (by decide)
  have hdirect : afterOvertaking.2 = updateTable startTimes 100 ⟨2, 0, 0⟩ zeroed := by
    rw [← htable]
    rfl
  refine ⟨hroom, .snoc (.snoc (.snoc .start rfl) rfl) rfl, rfl, ?_⟩
  unfold perfOptimizerCleanup
  rw [flush_table, hdirect]
  have hbuffer : afterOvertaking.1.buffer.pending = [(100, ⟨1, 0, 0⟩)] := hpending
  rw [hbuffer]
  exact get_update_self (slotFor_update_self hslot)

end MtRdma.Ports.PerformanceOptimizer
