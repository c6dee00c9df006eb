import MtRdma.Verified.Interleaving
import MtRdma.Ports.BatchUpdates

/-!
# Batched updates of several threads

Threads call `perf_optimizer_batch_update_resource` and
`perf_optimizer_flush_batch_buffer`, with batching on.  They interleave at the
sections of `g_batch_mutex`: an update that finds the buffer full gives the
mutex up, flushes, and takes it again to put itself into slot 0 of a buffer
that it believes to be empty.  What another thread has put there in between
is dropped, although that thread was told that its update is in.

As long as a re-insertion does find the buffer empty, and the table has a
place for every pid that is put into the buffer, no update is lost
(`no_batched_update_lost`).
-/

namespace MtRdma.Ports.BatchInterleaving

open Verified.Runs
open Verified.Interleaving
open Verified.SlotScan
open Verified.WriteBuffer
open SharedMemory
open PerformanceOptimizer

/-! ## The sections -/

/-- How far a thread has got with a batched update. -/
inductive Pc where
  | idle
  /-- The buffer was full; the mutex has been given up. -/
  | full (pid : Int) (usage : ResourceUsage)
  | flushed (pid : Int) (usage : ResourceUsage)
  /-- The update is in the buffer; the cache and the return remain. -/
  | inserted (pid : Int) (usage : ResourceUsage)
  deriving DecidableEq

inductive Action where
  | insert (pid : Int) (usage : ResourceUsage)
  | detectFull (pid : Int) (usage : ResourceUsage)
  | flushFull
  | reinsert (pid : Int) (usage : ResourceUsage)
  /-- The update returns 0. -/
  | finish (now : UInt64)
  /-- A call of `perf_optimizer_flush_batch_buffer`. -/
  | flush

/-- The optimizer and the process table behind it. -/
abbrev Shared := PerfOptimizer × SharedMemoryData

/-- One section of one thread. -/
def batchStep (start : Int → UInt64) : Pc × Shared → Action → Option (Pc × Shared)
  | (.idle, o, s), .insert pid usage =>
      (o.buffer.insert? pid usage).map fun buffer =>
        (.inserted pid usage, { o with buffer := buffer }, s)
  | (.idle, o, s), .detectFull pid usage =>
      match o.buffer.insert? pid usage with
      | some _ => none
      | none => some (.full pid usage, o, s)
  | (.full pid usage, o, s), .flushFull =>
      some (.flushed pid usage, perfOptimizerFlushBatchBuffer start o s)
  | (.flushed pid usage, o, s), .reinsert pid' usage' =>
      if pid' = pid ∧ usage' = usage then
        some (.inserted pid usage, { o with buffer := .restart pid usage }, s)
      else none
  | (.inserted pid usage, o, s), .finish now =>
      some (.idle, finishBatched now pid usage o, s)
  | (.idle, o, s), .flush => some (.idle, perfOptimizerFlushBatchBuffer start o s)
  | _, _ => none

theorem batchStep_reinsert (start : Int → UInt64) (pid : Int) (usage : ResourceUsage)
    (o : PerfOptimizer) (s : SharedMemoryData) :
    batchStep start (.flushed pid usage, o, s) (.reinsert pid usage) =
      some (.inserted pid usage, { o with buffer := .restart pid usage }, s) :=
  if_pos ⟨rfl, rfl⟩

/-- The sections of one thread that is not interrupted are the sequential
call. -/
theorem batchStep_alone (start : Int → UInt64) (now : UInt64) (pid : Int)
    (usage : ResourceUsage) (o : PerfOptimizer) (s : SharedMemoryData)
    (h : o.batchingEnabled = true) :
    Alone (batchStep start) (.idle, o, s)
      (.idle, (perfOptimizerBatchUpdateResource start now pid usage o s).2) := by
  unfold perfOptimizerBatchUpdateResource
  rw [if_neg (by simp [h])]
  cases hinsert : o.buffer.insert? pid usage with
  | some buffer =>
      refine .cons (a := .insert pid usage)
        (y := (.inserted pid usage, { o with buffer := buffer }, s)) ?_ ?_
      · simp [batchStep, hinsert]
      · exact .cons (a := .finish now) rfl (.refl _)
  | none =>
      refine .cons (a := .detectFull pid usage) (y := (.full pid usage, o, s)) ?_ ?_
      · simp [batchStep, hinsert]
      · refine .cons (a := .flushFull) rfl ?_
        refine .cons (batchStep_reinsert start pid usage _ _) ?_
        exact .cons (a := .finish now) rfl (.refl _)

/-- What a section does to the buffer and the table. -/
inductive Sectioned (start : Int → UInt64) (b : BatchBuffer) (s : SharedMemoryData) :
    Action → BatchBuffer → SharedMemoryData → Prop
  | insert {pid : Int} {usage : ResourceUsage} {b' : BatchBuffer} :
      b'.pending = put pid usage b.pending → Sectioned start b s (.insert pid usage) b' s
  | reinsert {pid : Int} {usage : ResourceUsage} {b' : BatchBuffer} :
      b'.pending = [(pid, usage)] → Sectioned start b s (.reinsert pid usage) b' s
  | flush {a : Action} {b' : BatchBuffer} : a = .flushFull ∨ a = .flush → b'.pending = [] →
      Sectioned start b s a b' (drain (updateTable start) b.pending s)
  | aside {a : Action} : (∃ pid usage, a = .detectFull pid usage) ∨ (∃ now, a = .finish now) →
      Sectioned start b s a b s

theorem sectioned_flush (start : Int → UInt64) {o : PerfOptimizer} {s : SharedMemoryData}
    {a : Action} (ha : a = .flushFull ∨ a = .flush) :
    Sectioned start o.buffer s a (perfOptimizerFlushBatchBuffer start o s).1.buffer
      (perfOptimizerFlushBatchBuffer start o s).2 := by
  rw [flush_table]
  exact .flush ha flush_pending

theorem sectioned_of_step {start : Int → UInt64} {k k' : Pc} {x x' : Shared} {a : Action}
    (h : batchStep start (k, x) a = some (k', x')) :
    Sectioned start x.1.buffer x.2 a x'.1.buffer x'.2 := by
  obtain ⟨o, s⟩ := x
  cases k with
  | idle =>
      cases a with
      | insert pid usage =>
          obtain ⟨buffer, hinsert, heq⟩ := Option.map_eq_some_iff.mp h
          cases heq
          exact .insert (BatchBuffer.insert?_pending hinsert)
      | detectFull pid usage =>
          dsimp only [batchStep] at h
          split at h
          · cases h
          · cases h
            exact .aside (.inl ⟨pid, usage, rfl⟩)
      | flush =>
          cases h
          exact sectioned_flush start (.inr rfl)
      | flushFull | reinsert _ _ | finish _ => cases h
  | full pid usage =>
      cases a with
      | flushFull =>
          cases h
          exact sectioned_flush start (.inl rfl)
      | insert _ _ | detectFull _ _ | reinsert _ _ | finish _ | flush => cases h
  | flushed pid usage =>
      cases a with
      | reinsert pid' usage' =>
          obtain ⟨⟨rfl, rfl⟩, heq⟩ := Option.ite_none_right_eq_some.mp h
          cases heq
          exact .reinsert rfl
      | insert _ _ | detectFull _ _ | flushFull | finish _ | flush => cases h
  | inserted pid usage =>
      cases a with
      | finish now =>
          cases h
          show Sectioned start o.buffer s _ (finishBatched now pid usage o).buffer s
          rw [finishBatched_buffer]
          exact .aside (.inr ⟨now, rfl⟩)
      | insert _ _ | detectFull _ _ | flushFull | reinsert _ _ | flush => cases h

/-! ## Which update of a pid is the last one -/

section History

variable {ι : Type}

/-- The section puts this update into the buffer. -/
def Puts (pid : Int) (usage : ResourceUsage) : ι × Action → Prop
  | (_, .insert pid' usage') => pid' = pid ∧ usage' = usage
  | (_, .reinsert pid' usage') => pid' = pid ∧ usage' = usage
  | _ => False

/-- The section puts some update of the pid into the buffer. -/
def PutsPid (pid : Int) (label : ι × Action) : Prop := ∃ usage, Puts pid usage label

/-- The update has been put into the buffer, and no update of its pid was
after it. -/
def Latest (pid : Int) (usage : ResourceUsage) (labels : List (ι × Action)) : Prop :=
  Since (Puts pid usage) (PutsPid pid) labels

end History

/-! ## What keeps the updates -/

/-- The table has a place for the pid, next to the pids that wait in the
buffer. -/
def HasPlace (pid : Int) (b : BatchBuffer) (s : SharedMemoryData) : Prop :=
  0 < pid ∧ (pid ∈ b.pids ∨ (lookup s.processPids pid).isSome ∨
    (used 0 s.processPids).card + (newcomers b.pids.toFinset s).card < maxProcesses)

/-- Whatever is put into the buffer has a place in the table, and a
re-insertion finds the buffer empty. -/
def Undisturbed (x : Pc × Shared) : Action → Prop
  | .insert pid _ => HasPlace pid x.2.1.buffer x.2.2
  | .reinsert pid _ => HasPlace pid x.2.1.buffer x.2.2 ∧ x.2.1.buffer.pending = []
  | _ => True

/-- The buffer fits into the table, and the last update of each pid is in the
buffer or, if none is, in the table. -/
structure Safe {ι : Type} (labels : List (ι × Action)) (b : BatchBuffer) (s : SharedMemoryData) :
    Prop where
  fits : Fits b.pending s
  kept : ∀ pid usage, Latest pid usage labels → 0 < pid ∧
    ((pid, usage) ∈ b.pending ∨ pid ∉ b.pids ∧ (usageMap s).get pid = some usage)

section Steps

variable {ι : Type} {start : Int → UInt64} {labels : List (ι × Action)} {label : ι × Action}
  {b b' : BatchBuffer} {s s' : SharedMemoryData} {pid : Int} {usage : ResourceUsage}

/-- An update with a place keeps the buffer one that fits. -/
theorem fits_put (h : Fits b.pending s) (hplace : HasPlace pid b s) :
    Fits (put pid usage b.pending) s := by
  obtain ⟨hpos, hplace⟩ := hplace
  constructor
  · intro e he
    by_cases hpid : e.1 = pid
    · rw [hpid]
      exact hpos
    · exact h.pid_pos e ((mem_put_of_ne (u := e.2) hpid).mp he)
  · have hroom : RoomFor b.pids.toFinset s := h.room
    rw [keys_put]
    split
    · exact hroom
    · rename_i hnew
      rw [List.toFinset_append, Finset.union_comm]
      unfold RoomFor newcomers at hroom ⊢
      rw [List.toFinset_cons, List.toFinset_nil, insert_empty_eq, ← Finset.insert_eq,
        Finset.filter_insert]
      rcases hplace with hmem | hsome | hlt
      · exact absurd hmem hnew
      · rw [if_neg (by simp [Option.isNone_iff_eq_none, Option.isSome_iff_ne_none.mp hsome])]
        exact hroom
      · split
        · exact (Nat.add_le_add_left (Finset.card_insert_le _ _) _).trans hlt
        · exact hroom

theorem Safe.put (h : Safe labels b s) (hplace : HasPlace pid b s)
    (hlabel : ∀ q u, Puts q u label ↔ pid = q ∧ usage = u)
    (hb : b'.pending = put pid usage b.pending) : Safe (labels ++ [label]) b' s where
  fits := by
    rw [hb]
    exact fits_put h.fits hplace
  kept := by
    intro q u hlatest
    unfold BatchBuffer.pids
    rw [hb]
    rcases (since_snoc _ _ _ _).mp hlatest with hnow | ⟨hbefore, hother⟩
    · obtain ⟨rfl, rfl⟩ := (hlabel q u).mp hnow
      exact ⟨hplace.1, .inl (mem_put_self pid usage b.pending)⟩
    · have hne : q ≠ pid := by
        rintro rfl
        exact hother ⟨usage, (hlabel q usage).mpr ⟨rfl, rfl⟩⟩
      obtain ⟨hpos, hkept⟩ := h.kept q u hbefore
      refine ⟨hpos, hkept.imp (mem_put_of_ne hne).mpr ?_⟩
      rintro ⟨hnot, hget⟩
      refine ⟨?_, hget⟩
      rw [keys_put]
      split
      · exact hnot
      · rw [List.mem_append, List.mem_singleton, not_or]
        exact ⟨hnot, hne⟩

theorem Safe.flush (h : Safe labels b s) (hlabel : ∀ q u, ¬Puts q u label)
    (hb : b'.pending = []) :
    Safe (labels ++ [label]) b' (drain (updateTable start) b.pending s) where
  fits := by
    rw [hb]
    exact ⟨nofun, card_used_le 0 _⟩
  kept := by
    intro q u hlatest
    rcases (since_snoc _ _ _ _).mp hlatest with hnow | ⟨hbefore, -⟩
    · exact absurd hnow (hlabel q u)
    · obtain ⟨hpos, hkept⟩ := h.kept q u hbefore
      refine ⟨hpos, .inr ⟨?_, ?_⟩⟩
      · unfold BatchBuffer.pids
        rw [hb]
        exact List.not_mem_nil
      · rcases hkept with hmem | ⟨hnot, hget⟩
        · exact get_drain_of_mem b.merged h.fits hmem
        · rw [get_drain_of_not_mem hpos hnot]
          exact hget

/-- **The step lemma.** -/
theorem Safe.step {i : ι} {a : Action} {k : Pc} {o : PerfOptimizer} (h : Safe labels o.buffer s)
    (hok : Undisturbed (k, o, s) a) (hstep : Sectioned start o.buffer s a b' s') :
    Safe (labels ++ [(i, a)]) b' s' := by
  cases hstep with
  | insert hb => exact h.put hok (fun _ _ => Iff.rfl) hb
  | reinsert hb =>
      refine h.put hok.1 (fun _ _ => Iff.rfl) ?_
      rw [hb, hok.2]
      rfl
  | flush ha hb =>
      refine h.flush ?_ hb
      rcases ha with rfl | rfl <;> exact fun _ _ => id
  | aside ha =>
      refine ⟨h.fits, ?_⟩
      intro q u hlatest
      rcases (since_snoc _ _ _ _).mp hlatest with hnow | ⟨hbefore, -⟩
      · rcases ha with ⟨_, _, rfl⟩ | ⟨_, rfl⟩ <;> exact hnow.elim
      · exact h.kept q u hbefore

end Steps

/-! ## Runs -/

section Runs

variable {ι : Type} [DecidableEq ι]

theorem safe_of_run (start : Int → UInt64) {c₀ c : Config ι Pc Shared}
    {labels : List (ι × Action)} (hempty : c₀.shared.1.buffer.pending = [])
    (hrun : Run (Guarded Undisturbed (batchStep start)) c₀ labels c) :
    Safe labels c.shared.1.buffer c.shared.2 := by
  refine Run.history (P := fun labels c => Safe labels c.shared.1.buffer c.shared.2) ?_ ?_ hrun
  · refine ⟨?_, fun pid usage h => absurd h (not_since_nil _ _)⟩
    rw [hempty]
    exact ⟨nofun, card_used_le 0 _⟩
  · rintro labels ⟨i, a⟩ c c' h ⟨hok, hact⟩
    obtain ⟨next, heq, rfl⟩ := Option.map_eq_some_iff.mp hact
    exact h.step hok (sectioned_of_step heq)

/-- **No update is lost** in an interleaving whose re-insertions find the
buffer empty: after a final flush, an update that was put into the buffer is
in the process table, unless a later one of its pid was put there. -/
theorem no_batched_update_lost (start : Int → UInt64) {c₀ c : Config ι Pc Shared}
    {labels : List (ι × Action)} (hempty : c₀.shared.1.buffer.pending = [])
    (hrun : Run (Guarded Undisturbed (batchStep start)) c₀ labels c) {pid : Int}
    {usage : ResourceUsage} (hlatest : Latest pid usage labels) :
    (usageMap (perfOptimizerFlushBatchBuffer start c.shared.1 c.shared.2).2).get pid =
      some usage := by
  have hsafe := safe_of_run start hempty hrun
  obtain ⟨hpos, hkept⟩ := hsafe.kept pid usage hlatest
  rw [flush_table]
  rcases hkept with hmem | ⟨hnot, hget⟩
  · exact get_drain_of_mem c.shared.1.buffer.merged hsafe.fits hmem
  · rw [get_drain_of_not_mem hpos hnot]
    exact hget

end Runs

/-! ## Two threads -/

/-- A freshly initialised optimizer in front of an empty table. -/
def freshThreads : Config Bool Pc Shared :=
  ⟨(perfOptimizerInit loadedOptimizer, zeroed), fun _ => .idle⟩

theorem exists_insert_of_empty {b : BatchBuffer} {pid : Int} {usage : ResourceUsage}
    (h : b.pending = []) : ∃ buffer, b.insert? pid usage = some buffer := by
  apply Option.ne_none_iff_exists'.mp
  rw [ne_eq, BatchBuffer.insert?_eq_none_iff, cacheBucketCount_eq]
  rintro ⟨-, hcount⟩
  unfold BatchBuffer.count at hcount
  rw [h] at hcount
  cases hcount

theorem hasPlace_of_room {pid : Int} {b : BatchBuffer} {s : SharedMemoryData} (hpos : 0 < pid)
    (h : RoomFor (insert pid b.pids.toFinset) s) : HasPlace pid b s := by
  refine ⟨hpos, ?_⟩
  by_cases hmem : pid ∈ b.pids
  · exact .inl hmem
  · cases hl : lookup s.processPids pid with
    | some slot => exact .inr (.inl rfl)
    | none =>
        refine .inr (.inr ?_)
        unfold RoomFor newcomers at h
        rw [Finset.filter_insert, if_pos (by rw [hl]; rfl), Finset.card_insert_of_notMem
          (fun hin => hmem (List.mem_toFinset.mp (Finset.mem_filter.mp hin).1))] at h
        exact h

/-- The pids from 1 to `n`. -/
def firstPids (n : Nat) : List Int := (List.range n).map fun j : Nat => (j : Int) + 1

theorem le_of_mem_firstPids {n : Nat} {pid : Int} (h : pid ∈ firstPids n) : pid ≤ n := by
  obtain ⟨j, hj, rfl⟩ := List.mem_map.mp h
  have hlt := List.mem_range.mp hj
  omega

theorem count_of_pids {b : BatchBuffer} {n : Nat} (h : b.pids = firstPids n) : b.count = n := by
  have hlength := congrArg List.length h
  unfold BatchBuffer.pids firstPids at hlength
  rw [List.length_map, List.length_map, List.length_range] at hlength
  exact hlength

theorem firstPids_room (n : Nat) (hn : n ≤ cacheBucketCount) (extra : List Int)
    (hextra : extra.length ≤ 2) : RoomFor (extra ++ firstPids n).toFinset zeroed := by
  refine RoomFor.zeroed ((List.toFinset_card_le _).trans ?_)
  unfold firstPids
  rw [List.length_append, List.length_map, List.length_range]
  rw [cacheBucketCount_eq] at hn
  rw [maxProcesses_eq]
  omega

/-- One thread fills the buffer with the pids from 1 on. -/
theorem exists_filled (start : Int → UInt64) (usage : ResourceUsage) {n : Nat}
    (hn : n ≤ cacheBucketCount) :
    ∃ labels o, Run (Guarded Undisturbed (batchStep start)) freshThreads labels
        ⟨(o, zeroed), fun _ => .idle⟩ ∧
      o.buffer.pids = firstPids n := by
  induction n with
  | zero => exact ⟨[], _, .start, rfl⟩
  | succ n ih =>
      obtain ⟨labels, o, hrun, hpids⟩ := ih (by omega)
      have hcount := count_of_pids hpids
      obtain ⟨buffer, hinsert⟩ : ∃ buffer,
          o.buffer.insert? ((n : Int) + 1) usage = some buffer := by
        apply Option.ne_none_iff_exists'.mp
        rw [ne_eq, BatchBuffer.insert?_eq_none_iff]
        omega
      have hplace : HasPlace ((n : Int) + 1) o.buffer zeroed := by
        refine hasPlace_of_room (by omega) ?_
        rw [hpids, ← List.toFinset_cons]
        exact firstPids_room n (by omega) [_] (by simp)
      have hinserted := hrun.snoc (a := (false, Action.insert ((n : Int) + 1) usage))
        ⟨hplace, interleaved_of_step (congrArg (Option.map _) hinsert)⟩
      have hfinished := hinserted.snoc (a := (false, Action.finish 0))
        ⟨trivial, interleaved_of_step rfl⟩
      rw [Function.update_idem, Function.update_eq_self] at hfinished
      refine ⟨_, _, hfinished, ?_⟩
      have hnew : (n : Int) + 1 ∉ firstPids n := by
        intro hmem
        have hle := le_of_mem_firstPids hmem
        omega
      unfold BatchBuffer.pids at hpids ⊢
      rw [finishBatched_buffer, BatchBuffer.insert?_pending hinsert, keys_put, hpids,
        if_neg hnew]
      unfold firstPids
      rw [List.range_succ, List.map_append]
      rfl

/-- With its update of pid 1000 a thread finds the buffer full, and flushes
it. -/
theorem exists_flushed : ∃ labels o s,
    Run (Guarded Undisturbed (batchStep fun _ => 7)) freshThreads labels
        ⟨(o, s), Function.update (fun _ => .idle) false (.flushed 1000 ⟨1, 0, 0⟩)⟩ ∧
      o.buffer.pending = [] ∧ (usageMap s).get 2000 = none ∧ RoomFor {2000, 1000} s := by
  obtain ⟨labels, o, hrun, hpids⟩ := exists_filled (fun _ => 7) ⟨1, 0, 0⟩ (Nat.le_refl _)
  have hnot : ∀ pid : Int, 1000 ≤ pid → pid ∉ o.buffer.pids := by
    intro pid hpid hmem
    rw [hpids] at hmem
    have hle := le_of_mem_firstPids hmem
    rw [cacheBucketCount_eq] at hle
    omega
  have hfull : o.buffer.insert? 1000 ⟨1, 0, 0⟩ = none :=
    BatchBuffer.insert?_eq_none_iff.mpr ⟨hnot 1000 (by decide), count_of_pids hpids⟩
  have hdetected := hrun.snoc (a := (false, Action.detectFull 1000 ⟨1, 0, 0⟩))
    ⟨trivial, interleaved_of_step (k := .full 1000 ⟨1, 0, 0⟩) (s := (o, zeroed)) (by
      simp only [batchStep, hfull])⟩
  have hflushed := hdetected.snoc (a := (false, Action.flushFull))
    ⟨trivial, interleaved_of_step rfl⟩
  rw [Function.update_idem] at hflushed
  refine ⟨_, (perfOptimizerFlushBatchBuffer (fun _ => 7) o zeroed).1,
    (perfOptimizerFlushBatchBuffer (fun _ => 7) o zeroed).2, hflushed, flush_pending, ?_, ?_⟩
  · rw [flush_table, get_drain_of_not_mem (by decide) (hnot 2000 (by decide)), usageMap_zeroed]
    rfl
  · have hroom := firstPids_room _ (Nat.le_refl _) [2000, 1000] (by decide)
    rw [flush_table]
    refine RoomFor.mono (RoomFor.drain hroom ?_ ?_) ?_
    · intro p hp
      rcases List.mem_append.mp (List.mem_toFinset.mp hp) with h | h
      · simp only [List.mem_cons, List.not_mem_nil, or_false] at h
        omega
      · obtain ⟨j, -, rfl⟩ := List.mem_map.mp h
        omega
    · intro k hk _
      exact List.mem_toFinset.mpr (List.mem_append_right _ (hpids ▸ hk))
    · rw [List.toFinset_append]
      exact Finset.subset_union_left

/-- A thread finds the buffer full, flushes it and puts its update into the
empty buffer; then another one puts in its own. -/
theorem no_batched_update_lost_at_flush :
    ∃ labels c, Run (Guarded Undisturbed (batchStep fun _ => 7)) freshThreads labels c ∧
      (false, Action.reinsert 1000 ⟨1, 0, 0⟩) ∈ labels ∧
      Latest 1000 ⟨1, 0, 0⟩ labels ∧ Latest 2000 ⟨2, 0, 0⟩ labels ∧
      (usageMap (perfOptimizerFlushBatchBuffer (fun _ => 7) c.shared.1 c.shared.2).2).get 1000 =
        some ⟨1, 0, 0⟩ ∧
      (usageMap (perfOptimizerFlushBatchBuffer (fun _ => 7) c.shared.1 c.shared.2).2).get 2000 =
        some ⟨2, 0, 0⟩ := by
  obtain ⟨labels, o, s, hrun, hpending, -, hroom⟩ := exists_flushed
  have hnone : o.buffer.pids.toFinset = ∅ := by
    unfold BatchBuffer.pids
    rw [hpending]
    rfl
  have hfirst : HasPlace 1000 o.buffer s := by
    refine hasPlace_of_room (by decide) (hroom.mono ?_)
    rw [hnone]
    decide
  have hreinserted := hrun.snoc (a := (false, Action.reinsert 1000 ⟨1, 0, 0⟩))
    ⟨⟨hfirst, hpending⟩, interleaved_of_step (batchStep_reinsert _ 1000 ⟨1, 0, 0⟩ _ _)⟩
  obtain ⟨buffer, hinsert⟩ : ∃ buffer,
      (BatchBuffer.restart 1000 ⟨1, 0, 0⟩).insert? 2000 ⟨2, 0, 0⟩ = some buffer := by
    apply Option.ne_none_iff_exists'.mp
    rw [ne_eq, BatchBuffer.insert?_eq_none_iff, cacheBucketCount_eq]
    decide
  have hsecond : HasPlace 2000 (.restart 1000 ⟨1, 0, 0⟩) s :=
    hasPlace_of_room (by decide) (hroom.mono (by decide))
  have hinserted := hreinserted.snoc (a := (true, Action.insert 2000 ⟨2, 0, 0⟩))
    ⟨hsecond, interleaved_of_step (congrArg (Option.map _) hinsert)⟩
  have hlate : Latest 1000 ⟨1, 0, 0⟩ (labels ++ [(false, Action.reinsert 1000 ⟨1, 0, 0⟩)] ++
      [(true, .insert 2000 ⟨2, 0, 0⟩)]) :=
    (since_snoc _ _ _ _).mpr (.inr ⟨(since_snoc _ _ _ _).mpr (.inl ⟨rfl, rfl⟩), by
      rintro ⟨usage, hpid, -⟩
      cases hpid⟩)
  have hlast : Latest 2000 ⟨2, 0, 0⟩ (labels ++ [(false, Action.reinsert 1000 ⟨1, 0, 0⟩)] ++
      [(true, .insert 2000 ⟨2, 0, 0⟩)]) := (since_snoc _ _ _ _).mpr (.inl ⟨rfl, rfl⟩)
  exact ⟨_, _, hinserted, by simp, hlate, hlast,
    no_batched_update_lost (fun _ => 7) rfl hinserted hlate,
    no_batched_update_lost (fun _ => 7) rfl hinserted hlast⟩

/-- **A batched update can be lost.**  Between the flush of a thread that found
the buffer full and its re-insertion, another thread puts an update of pid 2000
into the empty buffer and returns; the first one starts the buffer over. -/
theorem batched_update_lost :
    ∃ labels c, Run (Interleaved (batchStep fun _ => 7)) freshThreads labels c ∧
      (∀ i, c.control i = .idle) ∧ Latest 2000 ⟨1, 0, 0⟩ labels ∧
      (usageMap (perfOptimizerFlushBatchBuffer (fun _ => 7) c.shared.1 c.shared.2).2).get 2000 =
        none := by
  obtain ⟨labels, o, s, hguarded, hpending, htable, -⟩ := exists_flushed
  have hrun : Run (Interleaved (batchStep fun _ => 7)) freshThreads labels _ :=
    hguarded.mono fun _ _ _ h => h.2
  obtain ⟨buffer, hinsert⟩ : ∃ buffer, o.buffer.insert? 2000 ⟨1, 0, 0⟩ = some buffer :=
    exists_insert_of_empty hpending
  have hinserted := hrun.snoc (a := (true, Action.insert 2000 ⟨1, 0, 0⟩))
    (interleaved_of_step (congrArg (Option.map _) hinsert))
  have hreturned := hinserted.snoc (a := (true, Action.finish 0)) (interleaved_of_step rfl)
  -- the first thread starts the buffer over
  have hrestarted := hreturned.snoc (a := (false, Action.reinsert 1000 ⟨1, 0, 0⟩))
    (interleaved_of_step (batchStep_reinsert _ 1000 ⟨1, 0, 0⟩ _ _))
  have hdone := hrestarted.snoc (a := (false, Action.finish 0)) (interleaved_of_step rfl)
  refine ⟨_, _, hdone, ?_, ?_, ?_⟩
  · intro i
    cases i <;> rfl
  · refine (since_snoc _ _ _ _).mpr (.inr ⟨?_, nofun⟩)
    refine (since_snoc _ _ _ _).mpr (.inr ⟨?_, ?_⟩)
    · refine (since_snoc _ _ _ _).mpr (.inr ⟨?_, nofun⟩)
      exact (since_snoc _ _ _ _).mpr (.inl ⟨rfl, rfl⟩)
    · rintro ⟨usage, hpid, -⟩
      cases hpid
  · rw [flush_table]
    show (usageMap (drain _ (finishBatched 0 1000 ⟨1, 0, 0⟩ _).buffer.pending s)).get 2000 = none
    rw [finishBatched_buffer, get_drain_of_not_mem (by decide)]
    · exact htable
    · show (2000 : Int) ∉ [1000]
      decide

end MtRdma.Ports.BatchInterleaving
