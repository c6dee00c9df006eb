import MtRdma.Ports.ProcessLife

/-!
# The collector and running processes

An entry is emptied by an exit event, if the slot still holds what its pidfd
was registered for, or by a scan, if the health check fails.  Neither test is
about the process itself.  The start time that tells two processes with one
pid apart is read from the field behind it in `/proc/<pid>/stat`, and the
health check knows four of the letters a live process may show.

Where the readings do tell processes apart and every live process shows one of
the four letters, an entry is emptied only after its publisher is dead.
-/

namespace MtRdma.Ports.GcLiveness

open Verified.SlotScan
open Verified.Runs
open Verified.CText
open SharedMemory
open CollectorGc
open ProcessLife
open ProcessLife.LifeWorld (afterCollect_gc afterCollect_publisher
  afterCollect_referent afterScan_gc)

variable {slot : Slot}

/-! ## What the system has to answer -/

/-- `/proc/<pid>/status` has a `State:` line whose first letter among the six
that the health check knows is S, R, D or T. -/
def ShowsLiveState (status : Option (List Char)) : Prop :=
  ∃ content buf skipped c rest, status = some content ∧
    ((fgetsAll 256 content).find? fun buf => "State:".toList.isPrefixOf buf) = some buf ∧
    buf.drop 6 = skipped ++ c :: rest ∧
    (c = 'S' ∨ c = 'R' ∨ c = 'D' ∨ c = 'T') ∧
    ∀ d ∈ skipped, d ≠ 'Z' ∧ d ≠ 'X'

theorem stateLetterAlive_append {c : Char} {rest : List Char}
    (hc : c = 'S' ∨ c = 'R' ∨ c = 'D' ∨ c = 'T') :
    ∀ skipped : List Char, (∀ d ∈ skipped, d ≠ 'Z' ∧ d ≠ 'X') →
      stateLetterAlive (skipped ++ c :: rest) = true := by
  intro skipped
  induction skipped with
  | nil =>
      intro _
      have hnot : ¬(c = 'Z' ∨ c = 'X') := by
        rcases hc with rfl | rfl | rfl | rfl <;> decide
      show stateLetterAlive (c :: rest) = true
      unfold stateLetterAlive
      rw [if_neg hnot, if_pos hc]
  | cons d skipped ih =>
      intro h
      have hd : ¬(d = 'Z' ∨ d = 'X') := not_or.mpr (h d List.mem_cons_self)
      have htail := ih fun e he => h e (List.mem_cons_of_mem d he)
      show stateLetterAlive (d :: (skipped ++ c :: rest)) = true
      unfold stateLetterAlive
      rw [if_neg hd]
      split
      · rfl
      · exact htail

theorem ShowsLiveState.alive {status : Option (List Char)} (h : ShowsLiveState status) :
    gcIsProcessReallyAlive status = true := by
  obtain ⟨content, buf, skipped, c, rest, rfl, hline, hdrop, hc, hskipped⟩ := h
  unfold gcIsProcessReallyAlive
  simp only [hline, hdrop]
  exact stateLetterAlive_append hc skipped hskipped

/-- Which start times a process may read: never zero, and never the same for
two processes with one pid. -/
structure Separates (reads : ProcId → UInt64 → Prop) : Prop where
  nonzero : ∀ p r, reads p r → r ≠ 0
  distinct : ∀ p q r, p.pid = q.pid → reads p r → reads q r → p = q

/-- The answers in a step: a publishing process reads one of its start times,
and a scan finds every running publisher in a live state. -/
def AnswersFaithful (reads : ProcId → UInt64 → Prop) (w : LifeWorld) : LifeEvent → Prop
  | .publish p _ stat => reads p (shmReadProcStartTime stat)
  | .scan probes _ => ∀ slot p, w.publisher slot = some p → p ∈ w.running →
      ShowsLiveState (probes slot).status
  | _ => True

def FaithfulLifeStep (reads : ProcId → UInt64 → Prop) (w : LifeWorld) (e : LifeEvent)
    (w' : LifeWorld) : Prop :=
  AnswersFaithful reads w e ∧ LifeStep w e w'

/-! ## The invariant -/

/-- Each entry has a publisher, whose pid and start time it records.  Behind
each registered pidfd, the process whose entry it was registered for is the
one the pidfd refers to, or dead. -/
structure LifeInv (reads : ProcId → UInt64 → Prop) (w : LifeWorld) : Prop where
  wf : TableWf w.gc.shm
  pid_pos : ∀ p, p ∈ w.running ∨ p ∈ w.dead → 0 < p.pid
  published : ∀ slot, w.gc.shm.processPids slot ≠ 0 → ∃ p, w.publisher slot = some p
  known : ∀ slot p, w.publisher slot = some p → p ∈ w.running ∨ p ∈ w.dead
  entry : ∀ slot p, w.publisher slot = some p → p.pid = w.gc.shm.processPids slot ∧
    reads p (w.gc.shm.processStartTimes slot)
  registered : ∀ slot q, w.referent slot = some q → ∃ p, p.pid = (w.gc.pidfds slot).pid ∧
    reads p (w.gc.pidfds slot).startTime ∧ (p = q ∨ p ∈ w.dead)

section Invariant

variable {reads : ProcId → UInt64 → Prop} {w : LifeWorld} {p : ProcId}

theorem LifeInv.occupied (h : LifeInv reads w) (hp : w.publisher slot = some p) :
    w.gc.shm.processPids slot ≠ 0 := by
  have hpos := h.pid_pos p (h.known slot p hp)
  rw [← (h.entry slot p hp).1]
  omega

theorem LifeInv.init (h : LifeStart w) : LifeInv reads w where
  wf := h.shm ▸ TableWf.zeroed
  pid_pos := by
    intro p hp
    rw [h.running, h.dead] at hp
    rcases hp with hp | hp <;> exact absurd hp (Finset.notMem_empty p)
  published := by
    intro slot hocc
    rw [h.shm] at hocc
    exact absurd rfl hocc
  known := by
    intro slot p hp
    rw [h.publisher] at hp
    cases hp
  entry := by
    intro slot p hp
    rw [h.publisher] at hp
    cases hp
  registered := by
    intro slot q hq
    rw [h.referent] at hq
    cases hq

theorem LifeInv.start (h : LifeInv reads w) (hpos : 0 < p.pid) :
    LifeInv reads (w.afterStart p) where
  wf := h.wf
  pid_pos := by
    intro q hq
    rcases hq with hq | hq
    · rcases Finset.mem_insert.mp hq with rfl | hq
      · exact hpos
      · exact h.pid_pos q (.inl hq)
    · exact h.pid_pos q (.inr hq)
  published := h.published
  known := fun slot q hq => (h.known slot q hq).imp_left Finset.mem_insert_of_mem
  entry := h.entry
  registered := h.registered

theorem LifeInv.die (h : LifeInv reads w) (hrun : p ∈ w.running) :
    LifeInv reads (w.afterDeath p) where
  wf := h.wf
  pid_pos := by
    intro q hq
    rcases hq with hq | hq
    · exact h.pid_pos q (.inl (Finset.mem_of_mem_erase hq))
    · rcases Finset.mem_insert.mp hq with rfl | hq
      · exact h.pid_pos q (.inl hrun)
      · exact h.pid_pos q (.inr hq)
  published := h.published
  known := by
    intro slot q hq
    by_cases hqp : q = p
    · exact .inr (Finset.mem_insert.mpr (.inl hqp))
    · exact (h.known slot q hq).imp (Finset.mem_erase_of_ne_of_mem hqp) Finset.mem_insert_of_mem
  entry := h.entry
  registered := by
    intro slot q hq
    obtain ⟨r, hpid, hread, hdead⟩ := h.registered slot q hq
    exact ⟨r, hpid, hread, hdead.imp_right Finset.mem_insert_of_mem⟩

/-! ## Publishing -/

/-- With both start times known, the entry ends up with the one just read. -/
theorem refreshSlot_start {s : SharedMemoryData} {start : UInt64} (hstart : start ≠ 0)
    (hstored : s.processStartTimes slot ≠ 0) :
    (refreshSlot slot start s).processStartTimes =
      Function.update s.processStartTimes slot start := by
  unfold refreshSlot pidReused
  by_cases heq : start = s.processStartTimes slot
  · rw [if_neg (by simp [heq]), heq, Function.update_eq_self]
  · rw [if_pos (by simp [heq, hstart, hstored])]

/-- After an update each slot holds either the updated pid with the new start
time, or what it held before. -/
theorem publish_entry {s : SharedMemoryData} (h : TableWf s) {pid : Int} (hpid : 0 < pid)
    (usage : ResourceUsage) {start : UInt64} (hstart : start ≠ 0)
    (hstored : ∀ slot, s.processPids slot = pid → s.processStartTimes slot ≠ 0) (slot : Slot) :
    let s' := (shmUpdateProcessResources pid usage start s).2
    (s'.processPids slot = pid ∧ s'.processStartTimes slot = start) ∨
      (s'.processPids slot ≠ pid ∧ s'.processPids slot = s.processPids slot ∧
        s'.processStartTimes slot = s.processStartTimes slot) := by
  have hout := shmUpdateProcessResources_outcome pid usage start s
  generalize shmUpdateProcessResources pid usage start s = r at hout
  cases hout with
  | badPid hle => omega
  | @found i _ hl =>
      have hi := lookup_some hl
      have hnew := refreshSlot_start hstart (hstored i hi)
      by_cases hslot : slot = i
      · refine .inl ⟨?_, ?_⟩
        · simp [hslot, hi]
        · simp [storeUsage, hslot, hnew]
      · have hne : s.processPids slot ≠ pid := by
          intro heq
          exact hslot (h.distinct slot i (heq.trans hi.symm) (by rw [heq]; omega))
        refine .inr ⟨?_, ?_, ?_⟩
        · simpa using hne
        · simp
        · simp [storeUsage, hslot, hnew]
  | @added i _ hl hh =>
      by_cases hslot : slot = i
      · refine .inl ⟨?_, ?_⟩
        · simp [hslot]
        · simp [storeUsage, claimSlot, hslot]
      · have hne := (lookup_eq_none_iff _ _).mp hl slot
        refine .inr ⟨?_, ?_, ?_⟩
        · simpa [hslot] using hne
        · simp [hslot]
        · simp [storeUsage, claimSlot, hslot]
  | full _ hl _ => exact .inr ⟨(lookup_eq_none_iff _ _).mp hl slot, rfl, rfl⟩

theorem LifeInv.publish (h : LifeInv reads w) (hsep : Separates reads) (hrun : p ∈ w.running)
    (usage : ResourceUsage) {stat : Option (List Char)}
    (hread : reads p (shmReadProcStartTime stat)) :
    LifeInv reads (w.afterPublish p usage stat) ∧
      ∀ slot, w.gc.shm.processPids slot ≠ 0 →
        (w.afterPublish p usage stat).gc.shm.processPids slot ≠ 0 := by
  have hpos := h.pid_pos p (.inl hrun)
  have hstored : ∀ slot, w.gc.shm.processPids slot = p.pid →
      w.gc.shm.processStartTimes slot ≠ 0 := by
    intro slot hslot
    obtain ⟨q, hq⟩ := h.published slot (by omega)
    exact hsep.nonzero q _ (h.entry slot q hq).2
  have hentry : ∀ slot,
      ((w.afterPublish p usage stat).gc.shm.processPids slot = p.pid ∧
        (w.afterPublish p usage stat).gc.shm.processStartTimes slot =
          shmReadProcStartTime stat) ∨
      ((w.afterPublish p usage stat).gc.shm.processPids slot ≠ p.pid ∧
        (w.afterPublish p usage stat).gc.shm.processPids slot = w.gc.shm.processPids slot ∧
        (w.afterPublish p usage stat).gc.shm.processStartTimes slot =
          w.gc.shm.processStartTimes slot) :=
    publish_entry h.wf hpos usage (hsep.nonzero p _ hread) hstored
  have hpub : ∀ slot, (w.afterPublish p usage stat).publisher slot =
      if (w.afterPublish p usage stat).gc.shm.processPids slot = p.pid then some p
      else w.publisher slot := fun _ => rfl
  have hwf : TableWf (w.afterPublish p usage stat).gc.shm := h.wf.update _ _ _
  refine ⟨⟨hwf, h.pid_pos, ?_, ?_, ?_, h.registered⟩, ?_⟩
  · intro slot hocc
    rw [hpub]
    rcases hentry slot with ⟨hslot, _⟩ | ⟨hslot, hsame, _⟩
    · exact ⟨p, if_pos hslot⟩
    · rw [if_neg hslot]
      exact h.published slot (fun hzero => hocc (hsame.trans hzero))
  · intro slot q hq
    rw [hpub] at hq
    split at hq
    · exact Option.some.inj hq ▸ .inl hrun
    · exact h.known slot q hq
  · intro slot q hq
    rw [hpub] at hq
    rcases hentry slot with ⟨hslot, hstart⟩ | ⟨hslot, hsame, hstart⟩
    · rw [if_pos hslot] at hq
      obtain rfl := Option.some.inj hq
      exact ⟨hslot.symm, hstart.symm ▸ hread⟩
    · rw [if_neg hslot] at hq
      obtain ⟨hpid, hread'⟩ := h.entry slot q hq
      exact ⟨hpid.trans hsame.symm, hstart.symm ▸ hread'⟩
  · intro slot hocc
    rcases hentry slot with ⟨hslot, _⟩ | ⟨_, hsame, _⟩
    · exact fun hzero => hpos.ne' (hslot.symm.trans hzero)
    · exact fun hzero => hocc (hsame.symm.trans hzero)

/-! ## The collector -/

theorem publisherAfter_some {gc : GcState} {q : ProcId} (h : w.publisherAfter gc slot = some q) :
    gc.shm.processPids slot ≠ 0 ∧ w.publisher slot = some q := by
  unfold LifeWorld.publisherAfter at h
  split at h
  · cases h
  · rename_i hocc
    exact ⟨hocc, h⟩

/-- A collector step that leaves each entry as it is or empties it keeps all
that is said about entries. -/
theorem LifeInv.collect (h : LifeInv reads w) {gc : GcState} {referent : Slot → Option ProcId}
    (hwf : TableWf gc.shm)
    (hentry : ∀ slot, (gc.shm.processPids slot = w.gc.shm.processPids slot ∧
        gc.shm.processStartTimes slot = w.gc.shm.processStartTimes slot) ∨
      gc.shm.processPids slot = 0)
    (hreg : ∀ slot q, referent slot = some q → ∃ p, p.pid = (gc.pidfds slot).pid ∧
      reads p (gc.pidfds slot).startTime ∧ (p = q ∨ p ∈ w.dead)) :
    LifeInv reads (w.afterCollect gc referent) where
  wf := hwf
  pid_pos := h.pid_pos
  published := by
    intro slot hocc
    rw [afterCollect_gc] at hocc
    rw [afterCollect_publisher, LifeWorld.publisherAfter, if_neg hocc]
    rcases hentry slot with ⟨hsame, _⟩ | hzero
    · exact h.published slot (fun hzero => hocc (hsame.trans hzero))
    · exact absurd hzero hocc
  known := fun slot q hq => h.known slot q (publisherAfter_some hq).2
  entry := by
    intro slot q hq
    obtain ⟨hocc, hq⟩ := publisherAfter_some hq
    rw [afterCollect_gc]
    rcases hentry slot with ⟨hpid, hstart⟩ | hzero
    · rw [hpid, hstart]
      exact h.entry slot q hq
    · exact absurd hzero hocc
  registered := hreg

/-- The entry an exit event empties was published by the process its pidfd was
registered for. -/
theorem LifeInv.exitEvent (h : LifeInv reads w) (hsep : Separates reads) {q : ProcId}
    (hq : w.referent slot = some q) (hdead : q ∈ w.dead) :
    LifeInv reads (w.afterExitEvent slot) ∧
      ∀ i p, w.publisher i = some p →
        (gcHandleProcessExit slot w.gc).shm.processPids i = 0 → p ∈ w.dead := by
  have hcases := gcHandleProcessExit_cases slot w.gc
  constructor
  · refine h.collect ?_ ?_ ?_
    · exact gcHandleProcessExit_invariant (fun s i hs => hs.clearSlot i) slot h.wf
    · intro i
      by_cases hi : i = slot
      · rcases hcases with ⟨_, hshm, _⟩ | ⟨_, _, hshm, _⟩
        · rw [hshm]
          exact .inl ⟨rfl, rfl⟩
        · rw [hshm, hi]
          exact .inr (by simp)
      · obtain ⟨hpid, hstart, _⟩ := exitEvent_entry hi w.gc
        exact .inl ⟨hpid, hstart⟩
    · intro i r hr
      by_cases hi : i = slot
      · rw [hi, Function.update_self] at hr
        cases hr
      · rw [Function.update_of_ne hi] at hr
        rw [(exitEvent_entry hi w.gc).2.2]
        exact h.registered i r hr
  · intro i p hp hzero
    have hocc := h.occupied hp
    by_cases hi : i = slot
    · subst hi
      rcases hcases with ⟨_, hshm, _⟩ | ⟨hsame, _, _, _⟩
      · rw [hshm] at hzero
        exact absurd hzero hocc
      · -- the registered process and the publisher read the same start time
        obtain ⟨r, hpid, hread, hwho⟩ := h.registered i q hq
        obtain ⟨hpid', hread'⟩ := h.entry i p hp
        rw [hsame.1] at hpid'
        rw [hsame.2] at hread'
        obtain rfl := hsep.distinct p r _ (hpid'.trans hpid.symm) hread' hread
        rcases hwho with rfl | hwho
        · exact hdead
        · exact hwho
    · rw [(exitEvent_entry hi w.gc).1] at hzero
      exact absurd hzero hocc

theorem LifeInv.scan (h : LifeInv reads w) {probes : Slot → SlotProbe} {opened : Slot → ProcId}
    (hopened : ∀ slot, Opens (slotView slot w.gc) → 0 ≤ (probes slot).pidfdOpen →
      OpenedAs w slot (opened slot))
    (hlive : ∀ slot p, w.publisher slot = some p → p ∈ w.running →
      ShowsLiveState (probes slot).status) :
    LifeInv reads (w.afterScan probes opened) ∧
      ∀ i p, w.publisher i = some p →
        (gcScanAndRegister probes w.gc).shm.processPids i = 0 → p ∈ w.dead := by
  have hentry := fun slot => scan_entry probes slot w.gc
  have hpidfd := fun slot => scan_pidfd probes slot w.gc
  have hwf : TableWf (gcScanAndRegister probes w.gc).shm :=
    gcScanAndRegister_invariant (fun s i hs => hs.clearSlot i) probes h.wf
  unfold LifeWorld.afterScan
  generalize gcScanAndRegister probes w.gc = gc at hentry hpidfd hwf ⊢
  constructor
  · refine h.collect hwf (fun slot => (hentry slot).imp_right And.left) ?_
    intro slot q hq
    unfold LifeWorld.referentAfter at hq
    split at hq
    · cases hq
    · rename_i hfd
      obtain ⟨hnew, hold⟩ := hpidfd slot hfd
      split at hq
      · rename_i hopen
        obtain rfl := Option.some.inj hq
        obtain ⟨hok, heq⟩ := hnew hopen
        obtain ⟨p, hp⟩ := h.published slot hopen.1
        obtain ⟨hpid, hread⟩ := h.entry slot p hp
        rw [heq]
        refine ⟨p, hpid, hread, ?_⟩
        rcases h.known slot p hp with hrun | hdead
        · exact .inl ((hopened slot hopen hok).running p hrun hpid).symm
        · exact .inr hdead
      · rename_i hopen
        rw [hold hopen]
        exact h.registered slot q hq
  · intro slot p hp hzero
    rcases h.known slot p hp with hrun | hdead
    · rcases hentry slot with ⟨hsame, _⟩ | ⟨_, hfail⟩
      · exact absurd (hsame.symm.trans hzero) (h.occupied hp)
      · rw [(hlive slot p hp hrun).alive] at hfail
        cases hfail
    · exact hdead

/-- One step: the invariant is kept, and an entry that is emptied had a dead
publisher. -/
theorem FaithfulLifeStep.inv (hsep : Separates reads) (h : LifeInv reads w) {e : LifeEvent}
    {w' : LifeWorld} (hstep : FaithfulLifeStep reads w e w') :
    LifeInv reads w' ∧ ∀ slot p, w.publisher slot = some p →
      w'.gc.shm.processPids slot = 0 → p ∈ w.dead := by
  obtain ⟨hfaithful, hstep⟩ := hstep
  cases hstep with
  | start _ _ hpos _ =>
      exact ⟨h.start hpos, fun slot p hp hzero => absurd hzero (h.occupied hp)⟩
  | die hrun => exact ⟨h.die hrun, fun slot p hp hzero => absurd hzero (h.occupied hp)⟩
  | publish hrun =>
      obtain ⟨hinv, hocc⟩ := h.publish hsep hrun _ hfaithful
      exact ⟨hinv, fun slot p hp hzero => absurd hzero (hocc slot (h.occupied hp))⟩
  | exitEvent hq hdead => exact h.exitEvent hsep hq hdead
  | scan hopened =>
      obtain ⟨hinv, hdead⟩ := h.scan hopened hfaithful
      refine ⟨hinv, ?_⟩
      intro slot p hp hzero
      rw [afterScan_gc] at hzero
      exact hdead slot p hp hzero

end Invariant

/-! ## One process with pid 100 -/

/-- The process, and a line of `/proc/100/stat` in the documented order: its
start time 42 is field 22. -/
def process100 : ProcId := ⟨100, 42⟩

def stat100 : List Char :=
  "100 (app) S 1 100 100 0 -1 0 0 0 0 0 0 0 0 0 20 0 1 0 42 4096 7".toList

/-- What is read is field 23, the virtual memory size. -/
theorem stat100_read : shmReadProcStartTime (some stat100) = 4096 := by
  decide

/-- The status of a sleeping process, and that of a traced one, which is alive
as well. -/
def asleep : List Char := "Name:\tapp\nState:\tS (sleeping)\nTgid:\t100\n".toList

def traced : List Char := "Name:\tapp\nState:\tt (tracing stop)\nTgid:\t100\n".toList

theorem asleep_shows : ShowsLiveState (some asleep) := by
  refine ⟨asleep, "State:\tS (sleeping)\n".toList, ['\t'], 'S', " (sleeping)\n".toList, rfl,
    ?_, ?_, .inl rfl, ?_⟩
  · decide
  · decide
  · intro d hd
    obtain rfl := List.mem_singleton.mp hd
    decide

theorem traced_counts_as_dead : gcIsProcessReallyAlive (some traced) = false := by
  decide

/-- The collector before its first scan, and no process. -/
def emptyWorld : LifeWorld where
  gc := ⟨zeroed, SharedMemoryTenant.zeroed, fun _ => ⟨0, 0, 0⟩, []⟩
  running := ∅
  dead := ∅
  publisher := fun _ => none
  referent := fun _ => none

/-- The process has started and published one QP. -/
def publishedWorld : LifeWorld :=
  (emptyWorld.afterStart process100).afterPublish process100 ⟨1, 0, 0⟩ (some stat100)

theorem publishedWorld_slot :
    slotView 0 publishedWorld.gc = ⟨100, 4096, ⟨1, 0, 0⟩, ⟨0, 0, 0⟩⟩ := by
  have hshm : publishedWorld.gc.shm = storeUsage 0 ⟨1, 0, 0⟩ (claimSlot 0 100 4096 zeroed) := by
    show (shmUpdateProcessResources 100 ⟨1, 0, 0⟩
      (shmReadProcStartTime (some stat100)) zeroed).2 = _
    rw [stat100_read, update_zeroed (by decide)]
  unfold slotView
  rw [hshm]
  simp [storeUsage, claimSlot]
  rfl

theorem publishedWorld_other (h : slot ≠ 0) :
    publishedWorld.gc.shm.processPids slot = 0 := by
  have hshm : publishedWorld.gc.shm.processPids = Function.update zeroed.processPids 0 100 := by
    show (shmUpdateProcessResources 100 ⟨1, 0, 0⟩ (shmReadProcStartTime (some stat100))
      zeroed).2.processPids = _
    rw [update_zeroed (by decide)]
    rfl
  rw [hshm, Function.update_of_ne h]
  rfl

theorem publishedWorld_publisher : publishedWorld.publisher 0 = some process100 := by
  have hpid : publishedWorld.gc.shm.processPids 0 = 100 :=
    congrArg SlotView.pid publishedWorld_slot
  exact if_pos hpid

/-- The process reads what its stat line shows. -/
def reads100 (p : ProcId) (start : UInt64) : Prop := p = process100 ∧ start = 4096

theorem reads100_separates : Separates reads100 where
  nonzero := by
    intro p r hr
    rw [hr.2]
    decide
  distinct := fun p q r _ hp hq => hp.1.trans hq.1.symm

theorem emptyWorld_start : LifeStart emptyWorld :=
  ⟨rfl, rfl, rfl, fun _ => rfl, fun _ => rfl⟩

theorem publishedWorld_run :
    Run (FaithfulLifeStep reads100) emptyWorld
      [.start process100, .publish process100 ⟨1, 0, 0⟩ (some stat100)] publishedWorld := by
  have hstart : LifeStep emptyWorld (.start process100) (emptyWorld.afterStart process100) :=
    .start (Finset.notMem_empty _) (Finset.notMem_empty _) (by decide)
      (fun q hq => absurd hq (Finset.notMem_empty q))
  have hread : reads100 process100 (shmReadProcStartTime (some stat100)) :=
    ⟨rfl, stat100_read⟩
  have hpublish : LifeStep (emptyWorld.afterStart process100)
      (.publish process100 ⟨1, 0, 0⟩ (some stat100)) publishedWorld :=
    .publish (Finset.mem_insert_self _ _)
  exact (Run.start.snoc ⟨trivial, hstart⟩).snoc ⟨hread, hpublish⟩

/-- The answers of a scan that can open every process and finds it in the
given state. -/
def openProbes (status : List Char) : Slot → SlotProbe := fun _ => ⟨5, true, some status⟩

theorem publishedWorld_opened (slot : Slot) (h : Opens (slotView slot publishedWorld.gc)) :
    OpenedAs publishedWorld slot process100 := by
  by_cases hslot : slot = 0
  · subst hslot
    have hpid : publishedWorld.gc.shm.processPids 0 = 100 :=
      congrArg SlotView.pid publishedWorld_slot
    refine ⟨hpid.symm, ?_⟩
    intro q hq _
    exact (Finset.mem_singleton.mp hq).symm
  · exact absurd (publishedWorld_other hslot) h.1

/-- A scan has registered the entry of the running process. -/
structure Watched (w : LifeWorld) : Prop where
  slot : slotView 0 w.gc = ⟨100, 4096, ⟨1, 0, 0⟩, ⟨5, 100, 4096⟩⟩
  publisher : w.publisher 0 = some process100
  referent : w.referent 0 = some process100
  running : w.running = {process100}
  dead : w.dead = ∅

theorem Watched.pid {w : LifeWorld} (h : Watched w) : w.gc.shm.processPids 0 = 100 :=
  congrArg SlotView.pid h.slot

theorem exists_watched : ∃ events w,
    Run (FaithfulLifeStep reads100) emptyWorld events w ∧ Watched w := by
  have hscan : FaithfulLifeStep reads100 publishedWorld
      (.scan (openProbes asleep) fun _ => process100)
      (publishedWorld.afterScan (openProbes asleep) fun _ => process100) :=
    ⟨fun _ _ _ _ => asleep_shows, .scan fun slot h _ => publishedWorld_opened slot h⟩
  obtain ⟨gc, hgc, hview, _⟩ :=
    afterScan_collect publishedWorld (openProbes asleep) fun _ => process100
  have hslot : slotView 0 gc = ⟨100, 4096, ⟨1, 0, 0⟩, ⟨5, 100, 4096⟩⟩ := by
    rw [hview, publishedWorld_slot]
    simp [SlotView.scan, registered, openProbes]
  have hocc : ¬gc.shm.processPids 0 = 0 := by
    rw [show gc.shm.processPids 0 = 100 from congrArg SlotView.pid hslot]
    decide
  have hreg : ¬(gc.pidfds 0).pidfd < 0 := by
    rw [show gc.pidfds 0 = ⟨5, 100, 4096⟩ from congrArg SlotView.entry hslot]
    decide
  have hopen : Opens (slotView 0 publishedWorld.gc) := by
    rw [publishedWorld_slot]
    decide
  rw [hgc] at hscan
  refine ⟨_, _, publishedWorld_run.snoc hscan, hslot, ?_, ?_, rfl, rfl⟩
  · rw [afterCollect_publisher, LifeWorld.publisherAfter, if_neg hocc]
    exact publishedWorld_publisher
  · rw [afterCollect_referent, LifeWorld.referentAfter, if_neg hreg, if_pos hopen]

/-! ## The result -/

/-- **Entries of running processes stay.**  In every run in which all readings
of the start time are non-zero and tell processes with one pid apart, and every
scan finds the running publishers in a state the health check knows, an entry
is emptied only after the process that published it last is dead. -/
theorem emptied_entry_publisher_dead {reads : ProcId → UInt64 → Prop} (hsep : Separates reads)
    {w₀ w w' : LifeWorld} {events : List LifeEvent} {e : LifeEvent} (hstart : LifeStart w₀)
    (hrun : Run (FaithfulLifeStep reads) w₀ events w) (hstep : FaithfulLifeStep reads w e w')
    {slot : Slot} {p : ProcId} (hp : w.publisher slot = some p)
    (hemptied : w'.gc.shm.processPids slot = 0) : p ∈ w.dead := by
  have hinv : LifeInv reads w :=
    Run.invariant (.init hstart) (fun _ _ _ h hstep => (hstep.inv hsep h).1) hrun
  exact (hstep.inv hsep hinv).2 slot p hp hemptied

/-- The process dies, and the exit event of its pidfd empties its entry. -/
theorem emptied_after_exit : ∃ events w w',
    Run (FaithfulLifeStep reads100) emptyWorld events w ∧
      FaithfulLifeStep reads100 w (.exitEvent 0) w' ∧ w.publisher 0 = some process100 ∧
      w'.gc.shm.processPids 0 = 0 ∧ process100 ∈ w.dead := by
  obtain ⟨events, w, hrun, hw⟩ := exists_watched
  have halive : process100 ∈ w.running := by
    rw [hw.running]
    exact Finset.mem_singleton_self _
  have hdie : FaithfulLifeStep reads100 w (.die process100) (w.afterDeath process100) :=
    ⟨trivial, .die halive⟩
  have hrun := hrun.snoc hdie
  have hexit : FaithfulLifeStep reads100 (w.afterDeath process100) (.exitEvent 0)
      ((w.afterDeath process100).afterExitEvent 0) :=
    ⟨trivial, .exitEvent hw.referent (Finset.mem_insert_self _ _)⟩
  have hocc : w.gc.shm.processPids 0 ≠ 0 := by
    rw [hw.pid]
    decide
  have hreg : SlotUnchanged 0 w.gc := by
    have hentry : w.gc.pidfds 0 = ⟨5, 100, 4096⟩ := congrArg SlotView.entry hw.slot
    unfold SlotUnchanged
    rw [hw.pid, hentry]
    exact ⟨rfl, congrArg SlotView.start hw.slot⟩
  have hempty : ((w.afterDeath process100).afterExitEvent 0).gc.shm.processPids 0 = 0 := by
    show (gcHandleProcessExit 0 w.gc).shm.processPids 0 = 0
    rcases gcHandleProcessExit_cases 0 w.gc with ⟨hno, _⟩ | ⟨_, _, hshm, _⟩
    · exact absurd ⟨hreg, hocc⟩ hno
    · rw [hshm]
      simp
  exact ⟨_, _, _, hrun, hexit, hw.publisher, hempty,
    emptied_entry_publisher_dead reads100_separates emptyWorld_start hrun hexit hw.publisher
      hempty⟩

/-- The process runs under a debugger, and the next scan empties its entry. -/
theorem traced_process_emptied : ∃ events w probes opened w',
    LifeStart emptyWorld ∧ Run LifeStep emptyWorld events w ∧
      LifeStep w (.scan probes opened) w' ∧ (probes 0).status = some traced ∧
      w.publisher 0 = some process100 ∧ process100 ∈ w.running ∧ process100 ∉ w.dead ∧
      w'.gc.shm.processPids 0 = 0 := by
  obtain ⟨events, w, hrun, hw⟩ := exists_watched
  -- nothing else can be opened
  let probes : Slot → SlotProbe := fun _ => ⟨-1, false, some traced⟩
  have hscan : LifeStep w (.scan probes fun _ => process100)
      (w.afterScan probes fun _ => process100) :=
    .scan fun _ _ hok => absurd hok (show ¬(0 : Int) ≤ -1 by decide)
  have hempty : (w.afterScan probes fun _ => process100).gc.shm.processPids 0 = 0 := by
    rw [afterScan_gc, ← slotView_pid, gcScanAndRegister_slot, hw.slot]
    simp [SlotView.scan, probes, traced_counts_as_dead]
  refine ⟨events, w, probes, _, _, emptyWorld_start, hrun.mono fun _ _ _ h => h.2, hscan, rfl,
    hw.publisher, ?_, ?_, hempty⟩
  · rw [hw.running]
    exact Finset.mem_singleton_self _
  · rw [hw.dead]
    exact Finset.notMem_empty _

end MtRdma.Ports.GcLiveness
