import MtRdma.Ports.GlobalTotals
import MtRdma.Ports.GcLiveness

/-!
# Three scans reclaim every dead process

A scan does one thing to a slot.  A slot that was taken over is registered
anew and not looked at again until the next scan; a slot without a pidfd is
registered, and emptied only if that fails; a registered slot is emptied if
the health check fails.  A dead process can therefore survive two scans, one
for each kind of registration, and no more (`rank`).

The scan acts on every slot independently, so everything is proved about one
slot and then holds for the table.
-/

namespace MtRdma.Ports.ScanConvergence

open Verified.Runs
open Verified.CText
open SharedMemory
open CollectorGc
open GlobalTotals
open GcLiveness

/-! ## What the kernel shows -/

/-- What has become of a pid. -/
inductive Fate where
  | alive
  | zombieOrDead
  | absent
  deriving Repr, DecidableEq

/-- `/proc/<pid>/status` has a `State:` line whose first letter among the six
that the health check knows is Z or X. -/
def ShowsDeadState (status : Option (List Char)) : Prop :=
  ∃ content buf skipped c rest, status = some content ∧
    ((fgetsAll 256 content).find? fun buf => "State:".toList.isPrefixOf buf) = some buf ∧
    buf.drop 6 = skipped ++ c :: rest ∧
    (c = 'Z' ∨ c = 'X') ∧
    ∀ d ∈ skipped, d ≠ 'S' ∧ d ≠ 'R' ∧ d ≠ 'D' ∧ d ≠ 'T'

/-- The answer of the kernel for a pid with this fate.  An absent pid has no
status and no pidfd; otherwise `pidfd_open` and `epoll_ctl` answer as they
like. -/
def Answers (fate : Fate) (probe : SlotProbe) : Prop :=
  match fate with
  | .alive => ShowsLiveState probe.status
  | .zombieOrDead => ShowsDeadState probe.status
  | .absent => probe.status = none ∧ probe.pidfdOpen < 0

theorem stateLetterAlive_dead {c : Char} {rest : List Char} (hc : c = 'Z' ∨ c = 'X') :
    ∀ skipped : List Char, (∀ d ∈ skipped, d ≠ 'S' ∧ d ≠ 'R' ∧ d ≠ 'D' ∧ d ≠ 'T') →
      stateLetterAlive (skipped ++ c :: rest) = false := by
  intro skipped
  induction skipped with
  | nil =>
      intro _
      rw [List.nil_append, stateLetterAlive, if_pos hc]
  | cons d skipped ih =>
      intro h
      obtain ⟨hS, hR, hD, hT⟩ := h d List.mem_cons_self
      have htail := ih fun e he => h e (List.mem_cons_of_mem d he)
      rw [List.cons_append, stateLetterAlive]
      split
      · rfl
      · rw [if_neg (by simp [hS, hR, hD, hT])]
        exact htail

theorem Answers.not_alive {fate : Fate} {probe : SlotProbe} (h : Answers fate probe)
    (hfate : fate ≠ .alive) : gcIsProcessReallyAlive probe.status = false := by
  cases fate with
  | alive => exact absurd rfl hfate
  | zombieOrDead =>
      obtain ⟨content, buf, skipped, c, rest, hstatus, hline, hdrop, hc, hskipped⟩ := h
      unfold gcIsProcessReallyAlive
      simp only [hstatus, hline, hdrop]
      exact stateLetterAlive_dead hc skipped hskipped
  | absent =>
      rw [h.1]
      rfl

/-! ## One slot -/

/-- The entry is the one that the pidfd was registered for. -/
def Current (v : SlotView) : Prop := v.pid = v.entry.pid ∧ v.start = v.entry.startTime

instance (v : SlotView) : Decidable (Current v) := inferInstanceAs (Decidable (_ ∧ _))

/-- What a scan can do to a slot. -/
inductive ScanOutcome (probe : SlotProbe) (v : SlotView) : SlotView → Prop
  | hole {entry : PidfdEntry} : v.pid = 0 → entry.pidfd < 0 →
      ScanOutcome probe v { v with entry := entry }
  | registered {fd : Int} : v.pid ≠ 0 → v.entry.pidfd < 0 ∨ ¬Current v → 0 ≤ fd →
      ScanOutcome probe v { v with entry := ⟨fd, v.pid, v.start⟩ }
  | unregistered : v.pid ≠ 0 →
      (v.entry.pidfd < 0 ∧ gcIsProcessReallyAlive probe.status = true) ∨
        (0 ≤ v.entry.pidfd ∧ ¬Current v) →
      ScanOutcome probe v { v with entry := .unregistered }
  | reclaimed : v.pid ≠ 0 → gcIsProcessReallyAlive probe.status = false →
      ScanOutcome probe v ⟨0, 0, .zero, .unregistered⟩
  | kept : v.pid ≠ 0 → 0 ≤ v.entry.pidfd → Current v →
      gcIsProcessReallyAlive probe.status = true → ScanOutcome probe v v

theorem registered_cases (pid : Int) (start : UInt64) (probe : SlotProbe) :
    registered pid start probe = .unregistered ∨
      ∃ fd, 0 ≤ fd ∧ registered pid start probe = ⟨fd, pid, start⟩ := by
  unfold registered
  split
  · exact .inl rfl
  · rename_i h
    rw [not_or] at h
    exact .inr ⟨_, Int.not_lt.mp h.1, rfl⟩

theorem scan_outcome (probe : SlotProbe) (v : SlotView) :
    ScanOutcome probe v (v.scan probe) := by
  have hreg := registered_cases v.pid v.start probe
  unfold SlotView.scan
  by_cases hpid : v.pid = 0
  · rw [if_pos hpid]
    split
    · exact .hole hpid (by decide)
    · rename_i hclosed
      have hfd : v.entry.pidfd < 0 := Int.not_le.mp hclosed
      exact .hole hpid hfd
  rw [if_neg hpid]
  by_cases hfd : v.entry.pidfd < 0
  · rw [if_pos hfd]
    rcases hreg with hreg | ⟨fd, hnew, hreg⟩
    · -- no pidfd is to be had: the health check decides
      rw [hreg]
      cases halive : gcIsProcessReallyAlive probe.status with
      | false =>
          rw [if_pos ⟨by decide, by simp⟩]
          exact .reclaimed hpid halive
      | true =>
          rw [if_neg (by simp)]
          exact .unregistered hpid (.inl ⟨hfd, halive⟩)
    · rw [hreg, if_neg fun h => absurd h.1 (Int.not_lt.mpr hnew)]
      exact .registered hpid (.inl hfd) hnew
  · rw [if_neg hfd]
    by_cases hcur : v.pid = v.entry.pid ∧ v.start = v.entry.startTime
    · rw [if_neg (not_not.mpr hcur)]
      cases halive : gcIsProcessReallyAlive probe.status with
      | false =>
          rw [if_pos (by simp)]
          exact .reclaimed hpid halive
      | true =>
          rw [if_neg (by simp)]
          exact .kept hpid (Int.not_lt.mp hfd) hcur halive
    · rw [if_pos hcur]
      rcases hreg with hreg | ⟨fd, hnew, hreg⟩
      · rw [hreg]
        exact .unregistered hpid (.inr ⟨Int.not_lt.mp hfd, hcur⟩)
      · rw [hreg]
        exact .registered hpid (.inr hcur) hnew

/-! ## Scans of one slot -/

/-- One more than the scans that a dead process in the slot can survive. -/
def rank (v : SlotView) : Nat :=
  if v.pid = 0 then 0
  else if v.entry.pidfd < 0 then 2
  else if Current v then 1
  else 3

/-- The pidfd of the slot, if it has one, stands for the entry. -/
def Registered (v : SlotView) : Prop :=
  0 ≤ v.entry.pidfd → v.pid ≠ 0 ∧ v.entry.pid = v.pid ∧ v.entry.startTime = v.start

section Slot

variable {v : SlotView} {probe : SlotProbe}

theorem rank_le_three (v : SlotView) : rank v ≤ 3 := by
  unfold rank
  split
  · decide
  · split
    · decide
    · split <;> decide

theorem pid_eq_zero_of_rank (h : rank v = 0) : v.pid = 0 := by
  unfold rank at h
  split at h
  · assumption
  · split at h
    · cases h
    · split at h <;> cases h

/-- After a scan every pidfd stands for its entry. -/
theorem registered_scan (v : SlotView) (probe : SlotProbe) : Registered (v.scan probe) := by
  have hout := scan_outcome probe v
  generalize v.scan probe = v' at hout
  cases hout with
  | hole _ hfd => exact fun h => absurd hfd (Int.not_lt.mpr h)
  | registered hpid _ _ => exact fun _ => ⟨hpid, rfl, rfl⟩
  | unregistered | reclaimed => exact fun h => absurd h (show ¬(0 : Int) ≤ -1 by decide)
  | kept hpid _ hcur _ => exact fun _ => ⟨hpid, hcur.1.symm, hcur.2.symm⟩

/-- A scan keeps the pid of a slot or empties it. -/
theorem scan_pid (v : SlotView) (probe : SlotProbe) :
    (v.scan probe).pid = v.pid ∨ (v.scan probe).pid = 0 := by
  have hout := scan_outcome probe v
  generalize v.scan probe = v' at hout
  cases hout with
  | hole | registered | unregistered | kept => exact .inl rfl
  | reclaimed => exact .inr rfl

/-- A scan keeps the entry of a live process. -/
theorem scan_of_alive (halive : gcIsProcessReallyAlive probe.status = true) (v : SlotView) :
    (v.scan probe).pid = v.pid ∧ (v.scan probe).start = v.start ∧
      (v.scan probe).stats = v.stats := by
  have hout := scan_outcome probe v
  generalize v.scan probe = v' at hout
  cases hout with
  | hole | registered | unregistered | kept => exact ⟨rfl, rfl, rfl⟩
  | reclaimed _ hdead =>
      rw [halive] at hdead
      cases hdead

/-- A scan lowers the rank of a slot with a dead process. -/
theorem rank_scan (hdead : gcIsProcessReallyAlive probe.status = false) (v : SlotView) :
    rank (v.scan probe) ≤ rank v - 1 := by
  have hout := scan_outcome probe v
  generalize v.scan probe = v' at hout
  cases hout with
  | hole hpid _ =>
      have hzero : rank v = 0 := if_pos hpid
      rw [hzero]
      exact Nat.le_of_eq (if_pos hpid)
  | @registered fd hpid hwas hfd =>
      -- the slot had no pidfd for its entry before
      have hbefore : 2 ≤ rank v := by
        unfold rank
        rw [if_neg hpid]
        rcases hwas with hnone | hcur
        · rw [if_pos hnone]
        · rw [if_neg hcur]
          split <;> decide
      have hafter : rank { v with entry := ⟨fd, v.pid, v.start⟩ } = 1 := by
        unfold rank
        rw [if_neg hpid, if_neg (Int.not_lt.mpr hfd), if_pos ⟨rfl, rfl⟩]
      omega
  | unregistered hpid hwas =>
      rcases hwas with ⟨_, halive⟩ | ⟨hfd, hcur⟩
      · rw [hdead] at halive
        cases halive
      · have hbefore : rank v = 3 := by
          unfold rank
          rw [if_neg hpid, if_neg (Int.not_lt.mpr hfd), if_neg hcur]
        have hafter : rank { v with entry := .unregistered } = 2 := by
          have hfree : PidfdEntry.unregistered.pidfd < 0 := by decide
          unfold rank
          rw [if_neg hpid, if_pos hfree]
        omega
  | reclaimed _ _ => exact Nat.zero_le _
  | kept _ _ _ halive =>
      rw [hdead] at halive
      cases halive

end Slot

/-! ## Scans of the table -/

/-- Consecutive scans with the answers they get. -/
def gcScans (g : GcState) : List (Slot → SlotProbe) → GcState
  | [] => g
  | probes :: rest => gcScans (gcScanAndRegister probes g) rest

/-- The answers are those for the fates of the pids in the table, in every
scan. -/
def ScansAnswered (fate : Int → Fate) : GcState → List (Slot → SlotProbe) → Prop
  | _, [] => True
  | g, probes :: rest =>
      (∀ slot, g.shm.processPids slot ≠ 0 → Answers (fate (g.shm.processPids slot)) (probes slot)) ∧
        ScansAnswered fate (gcScanAndRegister probes g) rest

section Table

variable {fate : Int → Fate} {g : GcState} {scans : List (Slot → SlotProbe)} {slot : Slot}

/-- A slot that is empty stays empty. -/
theorem scans_of_hole (h : (slotView slot g).pid = 0) :
    (slotView slot (gcScans g scans)).pid = 0 := by
  induction scans generalizing g with
  | nil => exact h
  | cons probes rest ih =>
      rw [gcScans]
      refine ih ?_
      rw [gcScanAndRegister_slot]
      rcases scan_pid (slotView slot g) (probes slot) with hsame | hzero
      · rw [hsame, h]
      · exact hzero

/-- Each scan lowers the rank of the slot of a dead process. -/
theorem rank_scans (hanswered : ScansAnswered fate g scans) {pid : Int} (hdead : fate pid ≠ .alive)
    (hpid : (slotView slot g).pid = pid) :
    (slotView slot (gcScans g scans)).pid = 0 ∨
      rank (slotView slot (gcScans g scans)) ≤ rank (slotView slot g) - scans.length := by
  induction scans generalizing g with
  | nil => exact .inr (Nat.le_refl _)
  | cons probes rest ih =>
      by_cases hzero : pid = 0
      · exact .inl (scans_of_hole (hpid.trans hzero))
      · have hslot := gcScanAndRegister_slot probes slot g
        have hprobe := hanswered.1 slot (by rw [← slotView_pid, hpid]; exact hzero)
        rw [← slotView_pid, hpid] at hprobe
        have hstep := rank_scan (hprobe.not_alive hdead) (slotView slot g)
        rw [← hslot] at hstep
        rcases scan_pid (slotView slot g) (probes slot) with hsame | hempty
        · rw [← hslot, hpid] at hsame
          rw [gcScans, List.length_cons]
          refine (ih hanswered.2 hsame).imp_right fun hrest => ?_
          omega
        · rw [← hslot] at hempty
          rw [gcScans]
          exact .inl (scans_of_hole hempty)

/-- Scans keep the entry of a live process. -/
theorem scans_of_alive (hanswered : ScansAnswered fate g scans)
    (hocc : (slotView slot g).pid ≠ 0) (halive : fate (slotView slot g).pid = .alive) :
    (slotView slot (gcScans g scans)).pid = (slotView slot g).pid ∧
      (slotView slot (gcScans g scans)).start = (slotView slot g).start ∧
      (slotView slot (gcScans g scans)).stats = (slotView slot g).stats := by
  induction scans generalizing g with
  | nil => exact ⟨rfl, rfl, rfl⟩
  | cons probes rest ih =>
      have hprobe := hanswered.1 slot hocc
      rw [← slotView_pid, halive] at hprobe
      obtain ⟨hpid, hstart, hstats⟩ := scan_of_alive hprobe.alive (slotView slot g)
      rw [← gcScanAndRegister_slot] at hpid hstart hstats
      obtain ⟨hpid', hstart', hstats'⟩ := ih hanswered.2 (hpid ▸ hocc) (hpid ▸ halive)
      rw [gcScans]
      exact ⟨hpid'.trans hpid, hstart'.trans hstart, hstats'.trans hstats⟩

/-- After a last scan every pidfd stands for its entry. -/
theorem registered_scans (hne : scans ≠ []) : Registered (slotView slot (gcScans g scans)) := by
  induction scans generalizing g with
  | nil => exact absurd rfl hne
  | cons probes rest ih =>
      rw [gcScans]
      cases rest with
      | nil =>
          rw [gcScans, gcScanAndRegister_slot]
          exact registered_scan _ _
      | cons probes' rest => exact ih (List.cons_ne_nil _ _)

theorem totalIsSum_scans {G : Type} [AddCommGroup G] {r : Reading G} (h : TotalIsSum r g.shm) :
    TotalIsSum r (gcScans g scans).shm := by
  induction scans generalizing g with
  | nil => exact h
  | cons probes rest ih =>
      rw [gcScans]
      exact ih (gcScanAndRegister_invariant (fun _ slot hs => hs.clearSlot slot) probes h)

end Table

/-- The three totals are the sums over the table, in the width of the
fields. -/
structure TotalsAreSums (s : SharedMemoryData) : Prop where
  qp : TotalIsSum qpReading s
  mr : TotalIsSum mrReading s
  memory : TotalIsSum memoryReading s

/-- **Three scans reclaim every dead process.**  Whatever the collector has
registered before and whatever `pidfd_open` and `epoll_ctl` answer, after three
or more scans no slot holds a pid that is not alive, the entries of live
processes are as before, every pidfd stands for the entry of its slot, and the
totals are still the sums. -/
theorem three_scans_reclaim (fate : Int → Fate) (g : GcState) (scans : List (Slot → SlotProbe))
    (hthree : 3 ≤ scans.length) (htotals : TotalsAreSums g.shm)
    (hanswered : ScansAnswered fate g scans) :
    (∀ slot, (gcScans g scans).shm.processPids slot = 0 ∨
      fate ((gcScans g scans).shm.processPids slot) = .alive) ∧
    (∀ slot, g.shm.processPids slot ≠ 0 → fate (g.shm.processPids slot) = .alive →
      (gcScans g scans).shm.processPids slot = g.shm.processPids slot ∧
      (gcScans g scans).shm.processStartTimes slot = g.shm.processStartTimes slot ∧
      (gcScans g scans).shm.processStats slot = g.shm.processStats slot) ∧
    (∀ slot, 0 ≤ ((gcScans g scans).pidfds slot).pidfd →
      (gcScans g scans).shm.processPids slot ≠ 0 ∧
      ((gcScans g scans).pidfds slot).pid = (gcScans g scans).shm.processPids slot ∧
      ((gcScans g scans).pidfds slot).startTime =
        (gcScans g scans).shm.processStartTimes slot) ∧
    TotalsAreSums (gcScans g scans).shm := by
  refine ⟨?_, ?_, ?_, ?_⟩
  · intro slot
    by_cases halive : fate (g.shm.processPids slot) = .alive
    · by_cases hocc : g.shm.processPids slot = 0
      · exact .inl (scans_of_hole hocc)
      · have hview : (slotView slot g).pid ≠ 0 := hocc
        have hkept := (scans_of_alive hanswered hview halive).1
        right
        rw [← slotView_pid, hkept]
        exact halive
    · left
      have hpid : (slotView slot g).pid = g.shm.processPids slot := rfl
      rcases rank_scans hanswered halive hpid with hempty | hrank
      · exact hempty
      · have hle := rank_le_three (slotView slot g)
        exact pid_eq_zero_of_rank (v := slotView slot (gcScans g scans)) (by omega)
  · intro slot hocc halive
    exact scans_of_alive hanswered hocc halive
  · intro slot
    have hne : scans ≠ [] := by
      rintro rfl
      cases hthree
    have hregistered : Registered (slotView slot (gcScans g scans)) := registered_scans hne
    exact hregistered
  · exact ⟨totalIsSum_scans htotals.qp, totalIsSum_scans htotals.mr,
      totalIsSum_scans htotals.memory⟩

/-- One process has published a QP and is gone; the collector's table is as
`gc_thread_func` zeroes it. -/
def goneState : GcState where
  shm := (shmUpdateProcessResources 100 ⟨1, 0, 0⟩ 7 zeroed).2
  tenant := SharedMemoryTenant.zeroed
  pidfds := fun _ => ⟨0, 0, 0⟩
  calls := []

def goneProbe : SlotProbe := ⟨-1, false, none⟩

theorem three_scans_reclaim_absent :
    TotalsAreSums goneState.shm ∧
      ScansAnswered (fun _ => .absent) goneState
        [fun _ => goneProbe, fun _ => goneProbe, fun _ => goneProbe] ∧
      ∀ slot, (gcScans goneState
        [fun _ => goneProbe, fun _ => goneProbe, fun _ => goneProbe]).shm.processPids slot = 0 :=
  have htotals : TotalsAreSums goneState.shm :=
    ⟨(TotalIsSum.zeroed qpReading).update 100 ⟨1, 0, 0⟩ 7,
      (TotalIsSum.zeroed mrReading).update 100 ⟨1, 0, 0⟩ 7,
      (TotalIsSum.zeroed memoryReading).update 100 ⟨1, 0, 0⟩ 7⟩
  have hprobe : Answers .absent goneProbe := ⟨rfl, by decide⟩
  have hanswered : ScansAnswered (fun _ => .absent) goneState
      [fun _ => goneProbe, fun _ => goneProbe, fun _ => goneProbe] :=
    ⟨fun _ _ => hprobe, fun _ _ => hprobe, fun _ _ => hprobe, trivial⟩
  ⟨htotals, hanswered, fun slot =>
    ((three_scans_reclaim (fun _ => .absent) goneState
      [fun _ => goneProbe, fun _ => goneProbe, fun _ => goneProbe] (by decide) htotals
      hanswered).1 slot).resolve_right fun h => nomatch h⟩

end MtRdma.Ports.ScanConvergence
