import MtRdma.Verified.Interleaving
import MtRdma.Ports.TableWrites

/-!
# Attaching to the segment

Every process that attaches calls `shm_init`, which takes a segment whose
three totals are zero for a new one and initialises it.  Whether there is
anything else in it, such as limits that the collector has configured, entries
without resources or a lock somebody holds, is not looked at.

Any number of processes share the segment.  The calls that write it are split
into taking the lock, the body, and giving the lock back, so that an attaching
process, which does not take the lock, may come in between.
-/

namespace MtRdma.Ports.SegmentAttach

open Verified.Runs
open Verified.Interleaving
open Verified.SlotScan
open SharedMemory

variable {s : SharedMemoryData}

/-! ## The processes -/

/-- The calls made with the lock held; `shm_clear_process_entry` relies on its
caller for that. -/
inductive LockedCall where
  | setLimits (maxQp maxMr : UInt32) (maxMemory : UInt64)
  | update (pid : Int) (usage : ResourceUsage) (start : UInt64)
  | clear (slot : Int)
  | updateGlobal (usage : ResourceUsage)
  deriving DecidableEq

namespace LockedCall

def body (s : SharedMemoryData) : LockedCall → SharedMemoryData
  | .setLimits maxQp maxMr maxMemory => shmSetGlobalLimits maxQp maxMr maxMemory s
  | .update pid usage start => (shmUpdateProcessResources pid usage start s).2
  | .clear slot => (shmClearProcessEntry slot s).2
  | .updateGlobal usage => shmUpdateGlobalResources usage s

/-- An update with a pid that is not positive returns before it takes the
lock. -/
def takesLock : LockedCall → Bool
  | .update pid _ _ => 0 < pid
  | _ => true

end LockedCall

/-- How far a process has got with a call. -/
inductive Pc where
  | idle
  | holding (call : LockedCall)
  | done

inductive Action where
  /-- A successful `shm_init`. -/
  | attach
  | enter (call : LockedCall)
  | body
  | leave

def setLock (lock : Int32) (s : SharedMemoryData) : SharedMemoryData := { s with shmLock := lock }

/-- One action of one process; `shm_lock` waits for the word to be 0. -/
def segmentStep : Pc × SharedMemoryData → Action → Option (Pc × SharedMemoryData)
  | (.idle, s), .attach => some (.idle, shmInit s)
  | (.idle, s), .enter call =>
      if call.takesLock = true ∧ s.shmLock = 0 then
        some (.holding call, setLock 1 s)
      else none
  | (.holding call, s), .body => some (.done, call.body s)
  | (.done, s), .leave => some (.idle, setLock 0 s)
  | _, _ => none

/-- Any number of processes, after the first one has initialised the
segment. -/
def attachedSegment (ι : Type) : Config ι Pc SharedMemoryData := ⟨shmInit zeroed, fun _ => .idle⟩

/-! ## Bodies and the lock word -/

theorem update_setLock (pid : Int) (usage : ResourceUsage) (start : UInt64) (lock : Int32)
    (s : SharedMemoryData) :
    (shmUpdateProcessResources pid usage start (setLock lock s)).2 =
      setLock lock (shmUpdateProcessResources pid usage start s).2 := by
  rw [shmUpdateProcessResources_eq, shmUpdateProcessResources_eq]
  have hslot : slotFor pid (setLock lock s) = slotFor pid s := rfl
  rw [hslot]
  cases slotFor pid s <;> rfl

theorem clear_setLock (slot : Int) (lock : Int32) (s : SharedMemoryData) :
    (shmClearProcessEntry slot (setLock lock s)).2 =
      setLock lock (shmClearProcessEntry slot s).2 := by
  unfold shmClearProcessEntry
  cases slotOf? slot with
  | none => rfl
  | some i =>
      have hpid : (setLock lock s).processPids i = s.processPids i := rfl
      dsimp only
      rw [hpid]
      split <;> rfl

/-- No body reads or writes the lock word. -/
theorem body_setLock (call : LockedCall) (lock : Int32) (s : SharedMemoryData) :
    call.body (setLock lock s) = setLock lock (call.body s) := by
  cases call with
  | setLimits maxQp maxMr maxMemory => rfl
  | update pid usage start => exact update_setLock pid usage start lock s
  | clear slot => exact clear_setLock slot lock s
  | updateGlobal usage => rfl

/-- The actions of one process that is not disturbed are the call. -/
theorem run_call {ι : Type} [DecidableEq ι] (i : ι) {call : LockedCall}
    (hlocks : call.takesLock = true) (hfree : s.shmLock = 0) :
    Run (Interleaved segmentStep) ⟨s, fun _ => .idle⟩
      [(i, .enter call), (i, .body), (i, .leave)] ⟨call.body s, fun _ => .idle⟩ := by
  have hself : setLock 0 s = s := by
    unfold setLock
    rw [← hfree]
  have hlock : setLock 0 (call.body (setLock 1 s)) = call.body s := by
    rw [← body_setLock]
    exact congrArg call.body hself
  have hentered : Run (Interleaved segmentStep) ⟨s, fun _ => .idle⟩ [(i, .enter call)]
      ⟨setLock 1 s, Function.update (fun _ => .idle) i (.holding call)⟩ :=
    Run.start.snoc (interleaved_of_step (if_pos ⟨hlocks, hfree⟩))
  have hwritten := hentered.snoc (a := (i, Action.body))
    (interleaved_of_step (k := .done) (s := call.body (setLock 1 s)) (by
      dsimp only
      rw [Function.update_self]
      rfl))
  have hleft := hwritten.snoc (a := (i, Action.leave))
    (interleaved_of_step (k := .idle) (s := call.body s) (by
      dsimp only
      rw [Function.update_self]
      exact congrArg (fun s => some (Pc.idle, s)) hlock))
  rw [Function.update_idem, Function.update_idem, Function.update_eq_self] at hleft
  exact hleft

/-! ## Reachable segments are well formed -/

theorem tableWf_setLock (h : TableWf s) (lock : Int32) :
    TableWf (setLock lock s) :=
  ⟨h.distinct, h.pid_nonneg, h.hole_stats, h.hole_start⟩

theorem tableWf_body (h : TableWf s) (call : LockedCall) :
    TableWf (call.body s) := by
  cases call with
  | setLimits maxQp maxMr maxMemory =>
      exact ⟨h.distinct, h.pid_nonneg, h.hole_stats, h.hole_start⟩
  | update pid usage start => exact h.update pid usage start
  | clear slot => exact h.clearEntry slot
  | updateGlobal usage => exact ⟨h.distinct, h.pid_nonneg, h.hole_stats, h.hole_start⟩

theorem tableWf_segmentStep {k k' : Pc} {s' : SharedMemoryData} {a : Action} (h : TableWf s)
    (hstep : segmentStep (k, s) a = some (k', s')) : TableWf s' := by
  cases k with
  | idle =>
      cases a with
      | attach =>
          cases hstep
          exact h.shmInit
      | enter call =>
          obtain ⟨-, heq⟩ := Option.ite_none_right_eq_some.mp hstep
          cases heq
          exact tableWf_setLock h 1
      | body | leave => cases hstep
  | holding call =>
      cases a with
      | body =>
          cases hstep
          exact tableWf_body h call
      | attach | enter _ | leave => cases hstep
  | done =>
      cases a with
      | leave =>
          cases hstep
          exact tableWf_setLock h 0
      | attach | enter _ | body => cases hstep

theorem tableWf_of_run {ι : Type} [DecidableEq ι] {labels : List (ι × Action)}
    {c : Config ι Pc SharedMemoryData}
    (hrun : Run (Interleaved segmentStep) (attachedSegment ι) labels c) : TableWf c.shared := by
  refine Run.invariant (P := fun c => TableWf c.shared) TableWf.zeroed.shmInit ?_ hrun
  rintro c ⟨i, a⟩ c' h hact
  obtain ⟨next, heq, rfl⟩ := Option.map_eq_some_iff.mp hact
  exact tableWf_segmentStep h heq

/-! ## What an attaching process leaves alone -/

/-- What `shm_init` takes for a new segment. -/
def LooksNew (s : SharedMemoryData) : Prop :=
  s.globalStats.qpCount = 0 ∧ s.globalStats.mrCount = 0 ∧ s.globalStats.memoryUsed = 0

/-- Nobody has an entry, the limits are the built-in ones, the lock is free,
and nothing has been counted as a change. -/
structure Untouched (s : SharedMemoryData) : Prop where
  pids : ∀ i, s.processPids i = 0
  maxGlobalQp : s.maxGlobalQp = 1000
  maxGlobalMr : s.maxGlobalMr = 1000
  maxGlobalMemory : s.maxGlobalMemory = 1024 * 1024 * 1024
  shmLock : s.shmLock = 0
  version : s.version = 1

theorem shmInit_of_used (h : ¬LooksNew s) : shmInit s = s :=
  if_neg h

/-- What an initialisation writes. -/
theorem shmInit_of_looksNew (h : LooksNew s) :
    shmInit s = ⟨.zero, fun _ => .zero, fun _ => 0, fun _ => 0, 1000, 1000, 1024 * 1024 * 1024,
      0, 1⟩ :=
  if_pos h

theorem untouched_shmInit (h : LooksNew s) : Untouched (shmInit s) := by
  rw [shmInit_of_looksNew h]
  exact ⟨fun _ => rfl, rfl, rfl, rfl, rfl, rfl⟩

/-- A well-formed untouched segment has nothing to lose: without pids there is
no usage and no start time either. -/
theorem shmInit_of_untouched (hwf : TableWf s) (hzero : LooksNew s) (h : Untouched s) :
    shmInit s = s := by
  have hstats : s.processStats = fun _ => .zero := funext fun i => hwf.hole_stats i (h.pids i)
  have hpids : s.processPids = fun _ => 0 := funext h.pids
  have hstarts : s.processStartTimes = fun _ => 0 := funext fun i => hwf.hole_start i (h.pids i)
  rw [shmInit_of_looksNew hzero]
  obtain ⟨⟨qp, mr, memory⟩, stats, pids, starts, maxQp, maxMr, maxMemory, lock, version⟩ := s
  obtain ⟨rfl, rfl, rfl⟩ : qp = 0 ∧ mr = 0 ∧ memory = 0 := hzero
  obtain ⟨-, rfl, rfl, rfl, rfl, rfl⟩ := h
  subst hstats hpids hstarts
  rfl

/-- **What attaching disturbs.**  In every state that any number of processes
can reach, a further `shm_init` leaves the table, the totals, the limits, the
lock word and the version as they are if and only if some total is not zero or
the segment is still untouched. -/
theorem attach_keeps_segment_iff {ι : Type} [DecidableEq ι] {labels : List (ι × Action)}
    {c : Config ι Pc SharedMemoryData}
    (hrun : Run (Interleaved segmentStep) (attachedSegment ι) labels c) :
    shmInit c.shared = c.shared ↔ ¬LooksNew c.shared ∨ Untouched c.shared := by
  have hwf := tableWf_of_run hrun
  constructor
  · intro hsame
    by_cases hzero : LooksNew c.shared
    · exact .inr (hsame ▸ untouched_shmInit hzero)
    · exact .inl hzero
  · intro hcond
    by_cases hzero : LooksNew c.shared
    · rcases hcond with hnot | huntouched
      · exact absurd hzero hnot
      · exact shmInit_of_untouched hwf hzero huntouched
    · exact shmInit_of_used hzero

/-- After the first process has registered a QP, attaching changes nothing. -/
theorem attach_keeps_segment_iff_at_update :
    let call := LockedCall.update 100 ⟨1, 0, 0⟩ 7
    let s := call.body (shmInit zeroed)
    Run (Interleaved segmentStep) (attachedSegment Bool)
        [(false, .enter call), (false, .body), (false, .leave)] ⟨s, fun _ => .idle⟩ ∧
      (shmInit s = s ↔ ¬LooksNew s ∨ Untouched s) := by
  intro call s
  have hrun : Run (Interleaved segmentStep) (attachedSegment Bool)
      [(false, .enter call), (false, .body), (false, .leave)] ⟨s, fun _ => .idle⟩ :=
    run_call false rfl rfl
  exact ⟨hrun, attach_keeps_segment_iff hrun⟩

/-- **Attaching resets configured limits.**  The collector attaches and stores
a QP limit of 10, as `initialize_service` does; the next process that attaches
raises it to 1000. -/
theorem attach_resets_limits :
    let call := LockedCall.setLimits 10 1000 10737418240
    let s := call.body (shmInit zeroed)
    Run (Interleaved segmentStep) (attachedSegment Bool)
        [(false, .enter call), (false, .body), (false, .leave)] ⟨s, fun _ => .idle⟩ ∧
      s.maxGlobalQp = 10 ∧ (shmInit s).maxGlobalQp = 1000 :=
  ⟨run_call false rfl rfl, rfl, rfl⟩

end MtRdma.Ports.SegmentAttach
