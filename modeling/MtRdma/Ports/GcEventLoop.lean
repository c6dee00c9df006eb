import MtRdma.Ports.GcDescriptors
import MtRdma.Ports.GcLiveness

/-!
# The collector's event loop (`collector_server_shm.c`)

The thread of the garbage collector waits in `epoll_wait` for pidfds to become
readable, handles what is reported event by event, scans the process table, and
waits again.  An event says no more than the slot that was given with its pidfd
when it was registered, and between the report and the handling other events of
the same batch are handled and processes go on.

`ProcessLife` takes for granted that an exit event comes from the pidfd that the
slot has, and that its process is dead.  Here this is proved of the loop.  Every
open pidfd is the one of exactly one slot and is registered with that slot, so
that nothing leaks and no event is about another slot than it says
(`gc_loop_refines_life`).

Of the kernel the loop gets: `pidfd_open` returns a free descriptor, the
registration of a descriptor ends when it is closed, and `epoll_wait` reports
each descriptor once, and only if its process is dead.  An `EPOLL_CTL_ADD` that
fails is followed by the close of its descriptor, so that it may be taken to
succeed.
-/

namespace MtRdma.Ports.GcEventLoop

open Verified.Runs
open Verified.Descriptors (Table)
open SharedMemory
open CollectorGc
open GcDescriptors (SlotChange registerCalls gcScanSlot_change gcScanSlot_after
  after)
open ProcessLife
open GcLiveness (process100 stat100 stat100_read asleep asleep_shows
  emptyWorld)

/-! ## Open pidfds -/

/-- An open pidfd: the process behind it, and the slot it is registered with in
the epoll instance. -/
structure Pidfd where
  process : ProcId
  slot : Option Slot
  deriving DecidableEq

abbrev PidfdTable := Table Pidfd

/-- What a call does to the table, where `pidfd_open` finds process `p`. -/
def pidfdCall (p : ProcId) (call : FdCall) (t : PidfdTable) : PidfdTable :=
  match call with
  | .pidfdOpen _ fd => if fd < 0 then t else Function.update t fd (some ⟨p, none⟩)
  | .epollAdd fd slot =>
      Function.update t fd ((t fd).map fun x => { x with slot := some slot })
  | .epollDel fd => Function.update t fd ((t fd).map fun x => { x with slot := none })
  | .close fd => Function.update t fd none

/-- The table after a list of calls, the latest first. -/
def pidfdsAfter (p : ProcId) (t : PidfdTable) (calls : List FdCall) : PidfdTable :=
  calls.foldr (pidfdCall p) t

/-- `pidfd_open` fails, or returns a descriptor that is not a pidfd. -/
def Answered (p : ProcId) (t : PidfdTable) : List FdCall → Prop
  | [] => True
  | .pidfdOpen _ fd :: earlier =>
      Answered p t earlier ∧ (fd < 0 ∨ pidfdsAfter p t earlier fd = none)
  | _ :: earlier => Answered p t earlier

theorem pidfdsAfter_append (p : ProcId) (t : PidfdTable) (later earlier : List FdCall) :
    pidfdsAfter p t (later ++ earlier) = pidfdsAfter p (pidfdsAfter p t earlier) later :=
  List.foldr_append

theorem answered_append {p : ProcId} {t : PidfdTable} {later earlier : List FdCall}
    (h : Answered p t (later ++ earlier)) : Answered p (pidfdsAfter p t earlier) later := by
  induction later with
  | nil => trivial
  | cons call later ih =>
      cases call with
      | pidfdOpen pid fd =>
          refine ⟨ih h.1, h.2.imp_right fun hfree => ?_⟩
          rw [← pidfdsAfter_append]
          exact hfree
      | epollAdd | epollDel | close => exact ih h

/-! ## What an action does to the entry of its slot -/

/-- The calls of one iteration of the scan. -/
def visitCalls (probe : SlotProbe) (slot : Slot) (g : GcState) : List FdCall :=
  (gcScanSlot probe slot { g with calls := [] }).calls

/-- The calls of one exit event. -/
def exitCalls (slot : Slot) (g : GcState) : List FdCall :=
  (gcHandleProcessExit slot { g with calls := [] }).calls

theorem gcDropPidfd_calls {slot : Slot} {g : GcState} (hcalls : g.calls = [])
    (hopen : 0 ≤ (g.pidfds slot).pidfd) :
    (gcDropPidfd slot g).calls =
      [.close (g.pidfds slot).pidfd, .epollDel (g.pidfds slot).pidfd] := by
  simp [gcDropPidfd, hopen, hcalls]

/-- What calls were made before makes no difference. -/
theorem visit_change (probe : SlotProbe) (slot : Slot) (g : GcState) :
    ∃ e, (gcScanSlot probe slot g).pidfds = Function.update g.pidfds slot e ∧
      SlotChange slot probe (g.pidfds slot) (Opens (slotView slot g)) e
        (visitCalls probe slot g) := by
  have hafter : gcScanSlot probe slot g =
      after (gcScanSlot probe slot { g with calls := [] }) g.calls :=
    gcScanSlot_after probe slot { g with calls := [] } g.calls
  rw [hafter]
  exact gcScanSlot_change probe slot (g := { g with calls := [] }) rfl

theorem gcHandleProcessExit_pidfds (slot : Slot) (g : GcState) :
    (gcHandleProcessExit slot g).pidfds = Function.update g.pidfds slot .unregistered := by
  unfold gcHandleProcessExit
  split <;> rfl

theorem exitCalls_eq {slot : Slot} {g : GcState} (hopen : 0 ≤ (g.pidfds slot).pidfd) :
    exitCalls slot g = [.close (g.pidfds slot).pidfd, .epollDel (g.pidfds slot).pidfd] := by
  unfold exitCalls gcHandleProcessExit
  split
  · exact gcDropPidfd_calls (g := reclaimExited slot { g with calls := [] }) rfl hopen
  · exact gcDropPidfd_calls (g := { g with calls := [] }) rfl hopen

/-! ## The table and the slots -/

/-- Every slot with a descriptor has an open pidfd of the process that it refers
to, registered with this slot, and no other pidfd is open. -/
structure Tracks (pidfds : Slot → PidfdEntry) (referent : Slot → Option ProcId)
    (t : PidfdTable) : Prop where
  opened : ∀ slot, 0 ≤ (pidfds slot).pidfd →
    ∃ p, referent slot = some p ∧ t (pidfds slot).pidfd = some ⟨p, some slot⟩
  held : ∀ fd, t fd ≠ none → 0 ≤ fd ∧ ∃ slot, (pidfds slot).pidfd = fd

namespace Tracks

variable {pidfds : Slot → PidfdEntry} {referent referent' : Slot → Option ProcId}
  {t : PidfdTable} {slot : Slot}

/-- No two slots share a descriptor. -/
theorem unique (h : Tracks pidfds referent t) {i j : Slot} (hi : 0 ≤ (pidfds i).pidfd)
    (hij : (pidfds i).pidfd = (pidfds j).pidfd) : i = j := by
  obtain ⟨p, -, hp⟩ := h.opened i hi
  obtain ⟨q, -, hq⟩ := h.opened j (hij ▸ hi)
  rw [hij, hq] at hp
  simp only [Option.some.injEq, Pidfd.mk.injEq] at hp
  exact hp.2.symm

/-- A registration says where its descriptor is. -/
theorem slot_of_registered (h : Tracks pidfds referent t) {fd : Int} {p : ProcId}
    (hfd : t fd = some ⟨p, some slot⟩) :
    0 ≤ fd ∧ (pidfds slot).pidfd = fd ∧ referent slot = some p := by
  obtain ⟨hpos, i, hi⟩ := h.held fd (by simp [hfd])
  obtain ⟨q, hq, hrecord⟩ := h.opened i (hi ▸ hpos)
  rw [hi, hfd] at hrecord
  simp only [Option.some.injEq, Pidfd.mk.injEq] at hrecord
  obtain ⟨rfl, rfl⟩ := hrecord
  exact ⟨hpos, hi, hq⟩

/-- Only the referents of registered slots matter. -/
theorem congr (h : Tracks pidfds referent t)
    (hsame : ∀ slot, 0 ≤ (pidfds slot).pidfd → referent' slot = referent slot) :
    Tracks pidfds referent' t where
  opened slot hslot := by
    rw [hsame slot hslot]
    exact h.opened slot hslot
  held := h.held

/-- The descriptor of a slot is closed. -/
theorem close (h : Tracks pidfds referent t) (hopen : 0 ≤ (pidfds slot).pidfd) :
    Tracks (Function.update pidfds slot .unregistered) referent
      (Function.update t (pidfds slot).pidfd none) := by
  constructor
  · intro i hi
    by_cases his : i = slot
    · rw [his, Function.update_self] at hi
      exact absurd hi (by decide)
    · rw [Function.update_of_ne his] at hi ⊢
      rw [Function.update_of_ne fun heq => his (h.unique hi heq)]
      exact h.opened i hi
  · intro fd hfd
    by_cases hsame : fd = (pidfds slot).pidfd
    · rw [hsame, Function.update_self] at hfd
      exact absurd rfl hfd
    · rw [Function.update_of_ne hsame] at hfd
      obtain ⟨hpos, i, hi⟩ := h.held fd hfd
      have his : i ≠ slot := by
        rintro rfl
        exact hsame hi.symm
      exact ⟨hpos, i, by rw [Function.update_of_ne his, hi]⟩

/-- A slot without a descriptor gets another entry without one. -/
theorem clear (h : Tracks pidfds referent t) (hnone : (pidfds slot).pidfd < 0) {e : PidfdEntry}
    (he : e.pidfd < 0) : Tracks (Function.update pidfds slot e) referent t := by
  constructor
  · intro i hi
    by_cases his : i = slot
    · rw [his, Function.update_self] at hi
      omega
    · rw [Function.update_of_ne his] at hi ⊢
      exact h.opened i hi
  · intro fd hfd
    obtain ⟨hpos, i, hi⟩ := h.held fd hfd
    have his : i ≠ slot := by
      rintro rfl
      omega
    exact ⟨hpos, i, by rw [Function.update_of_ne his, hi]⟩

/-- A slot without a descriptor gets a fresh one. -/
theorem take (h : Tracks pidfds referent t) (hnone : (pidfds slot).pidfd < 0) {e : PidfdEntry}
    (he : 0 ≤ e.pidfd) (hfree : t e.pidfd = none) (p : ProcId) :
    Tracks (Function.update pidfds slot e) (Function.update referent slot (some p))
      (Function.update t e.pidfd (some ⟨p, some slot⟩)) := by
  constructor
  · intro i hi
    by_cases his : i = slot
    · subst his
      rw [Function.update_self, Function.update_self, Function.update_self]
      exact ⟨p, rfl, rfl⟩
    · rw [Function.update_of_ne his] at hi
      rw [Function.update_of_ne his, Function.update_of_ne his]
      obtain ⟨q, hq, hrecord⟩ := h.opened i hi
      have hfd : (pidfds i).pidfd ≠ e.pidfd := by
        intro heq
        rw [heq, hfree] at hrecord
        cases hrecord
      exact ⟨q, hq, by rw [Function.update_of_ne hfd, hrecord]⟩
  · intro fd hfd
    by_cases hsame : fd = e.pidfd
    · exact ⟨hsame ▸ he, slot, by rw [Function.update_self, hsame]⟩
    · rw [Function.update_of_ne hsame] at hfd
      obtain ⟨hpos, i, hi⟩ := h.held fd hfd
      have his : i ≠ slot := by
        rintro rfl
        omega
      exact ⟨hpos, i, by rw [Function.update_of_ne his, hi]⟩

end Tracks

/-- The process that a slot refers to after a change of its entry to `e`. -/
def referentOf (opens : Prop) [Decidable opens] (e : PidfdEntry) (p : ProcId)
    (old : Option ProcId) : Option ProcId :=
  if e.pidfd < 0 then none else if opens then some p else old

namespace Tracks

variable {pidfds : Slot → PidfdEntry} {referent : Slot → Option ProcId} {t : PidfdTable}
  {slot : Slot} {probe : SlotProbe} {p : ProcId}

/-- A registration of a slot without a descriptor. -/
theorem register (h : Tracks pidfds referent t) (hnone : (pidfds slot).pidfd < 0) (pid : Int)
    (start : UInt64) (hanswer : Answered p t (registerCalls slot pid probe)) :
    Tracks (Function.update pidfds slot (registered pid start probe))
      (Function.update referent slot (some p))
      (pidfdsAfter p t (registerCalls slot pid probe)) := by
  have hother : ∀ {e : PidfdEntry}, e.pidfd < 0 →
      Tracks (Function.update pidfds slot e) (Function.update referent slot (some p)) t := by
    intro e he
    refine (h.clear hnone he).congr fun i hi => ?_
    have his : i ≠ slot := by
      rintro rfl
      rw [Function.update_self] at hi
      omega
    rw [Function.update_of_ne his]
  by_cases hopen : probe.pidfdOpen < 0
  · have hentry : registered pid start probe = .unregistered := if_pos (.inl hopen)
    have htable : pidfdsAfter p t (registerCalls slot pid probe) = t := by
      simp [registerCalls, pidfdsAfter, pidfdCall, hopen]
    rw [hentry, htable]
    exact hother (by decide)
  · unfold registerCalls at hanswer ⊢
    rw [if_neg hopen] at hanswer ⊢
    cases hadd : probe.epollAdd with
    | true =>
        rw [hadd, if_pos rfl] at hanswer
        have hfree : t probe.pidfdOpen = none := hanswer.2.resolve_left hopen
        have hentry : registered pid start probe = ⟨probe.pidfdOpen, pid, start⟩ := by
          simp [registered, hopen, hadd]
        have htable : pidfdsAfter p t
            [.epollAdd probe.pidfdOpen slot, .pidfdOpen pid probe.pidfdOpen] =
            Function.update t probe.pidfdOpen (some ⟨p, some slot⟩) := by
          simp [pidfdsAfter, pidfdCall, hopen]
        rw [if_pos rfl, htable, hentry]
        exact h.take hnone (e := ⟨probe.pidfdOpen, pid, start⟩) (not_lt.mp hopen) hfree p
    | false =>
        rw [hadd, if_neg Bool.false_ne_true] at hanswer
        have hfree : t probe.pidfdOpen = none := hanswer.2.resolve_left hopen
        have hentry : registered pid start probe = .unregistered := if_pos (.inr hadd)
        have htable : pidfdsAfter p t [.close probe.pidfdOpen,
            .epollAdd probe.pidfdOpen slot, .pidfdOpen pid probe.pidfdOpen] = t := by
          simp only [pidfdsAfter, List.foldr_cons, List.foldr_nil, pidfdCall, if_neg hopen,
            Function.update_idem]
          rw [← hfree, Function.update_eq_self]
        rw [if_neg Bool.false_ne_true, htable, hentry]
        exact hother (by decide)

/-- Every change of an entry keeps the table and the slots together. -/
theorem change (h : Tracks pidfds referent t) {opens : Prop} [Decidable opens] {e : PidfdEntry}
    {calls : List FdCall} (hchange : SlotChange slot probe (pidfds slot) opens e calls)
    (hanswer : Answered p t calls) :
    Tracks (Function.update pidfds slot e)
      (Function.update referent slot (referentOf opens e p (referent slot)))
      (pidfdsAfter p t calls) := by
  -- where there is a descriptor, the referent is the old one or `p`
  have hreferent : ∀ {r : Option ProcId} {t' : PidfdTable},
      Tracks (Function.update pidfds slot e) (Function.update referent slot r) t' →
      (0 ≤ e.pidfd → referentOf opens e p (referent slot) = r) →
      Tracks (Function.update pidfds slot e)
        (Function.update referent slot (referentOf opens e p (referent slot))) t' := by
    intro r t' ht hr
    refine ht.congr fun i hi => ?_
    by_cases his : i = slot
    · subst his
      rw [Function.update_self] at hi
      rw [Function.update_self, Function.update_self, hr hi]
    · rw [Function.update_of_ne his, Function.update_of_ne his]
  cases hchange with
  | keep hno =>
      refine hreferent (r := referent slot) ?_ fun he => ?_
      · rw [Function.update_eq_self, Function.update_eq_self]
        exact h
      · rw [referentOf, if_neg (not_lt.mpr he), if_neg hno]
  | clear hno hneg =>
      refine hreferent (r := referent slot) ?_ fun he => absurd he (by decide)
      rw [Function.update_eq_self slot referent]
      exact h.clear hneg (by decide)
  | drop hno hopen =>
      have htable : pidfdsAfter p t [.close (pidfds slot).pidfd, .epollDel (pidfds slot).pidfd] =
          Function.update t (pidfds slot).pidfd none := by
        simp [pidfdsAfter, pidfdCall]
      refine hreferent (r := referent slot) ?_ fun he => absurd he (by decide)
      rw [Function.update_eq_self slot referent, htable]
      exact h.close hopen
  | register pid start hopens hnone =>
      refine hreferent (h.register hnone pid start hanswer) fun he => ?_
      rw [referentOf, if_neg (not_lt.mpr he), if_pos hopens]
  | replace pid start hopens hopen =>
      have hclosed := h.close hopen
      have hnone : (Function.update pidfds slot .unregistered slot).pidfd < 0 := by
        rw [Function.update_self]
        decide
      have hregister := hclosed.register hnone pid start (answered_append hanswer)
      rw [Function.update_idem] at hregister
      rw [pidfdsAfter_append]
      refine hreferent hregister fun he => ?_
      rw [referentOf, if_neg (not_lt.mpr he), if_pos hopens]

end Tracks

/-! ## The scan -/

/-- One iteration of the scan, with what the kernel does. -/
def VisitStep (probes : Slot → SlotProbe) (opened : Slot → ProcId) (x : GcState × PidfdTable)
    (slot : Slot) (x' : GcState × PidfdTable) : Prop :=
  Answered (opened slot) x.2 (visitCalls (probes slot) slot x.1) ∧
    x' = (gcScanSlot (probes slot) slot x.1,
      pidfdsAfter (opened slot) x.2 (visitCalls (probes slot) slot x.1))

section Scan

variable {probes : Slot → SlotProbe} {opened : Slot → ProcId} {g g' : GcState}
  {t t' : PidfdTable}

theorem visits_gc {slots : List Slot} (hrun : Run (VisitStep probes opened) (g, t) slots (g', t')) :
    g' = slots.foldl (fun g slot => gcScanSlot (probes slot) slot g) g := by
  refine hrun.history (P := fun slots (x : GcState × PidfdTable) =>
    x.1 = slots.foldl (fun g slot => gcScanSlot (probes slot) slot g) g) rfl ?_
  rintro slots slot ⟨g₁, t₁⟩ ⟨g₂, t₂⟩ hbefore ⟨-, hafter⟩
  rw [List.foldl_append, ← hbefore]
  exact congrArg Prod.fst hafter

/-- The referents after the visits of some of the slots. -/
def visitedReferent (w : LifeWorld) (gc : GcState) (opened : Slot → ProcId) (slots : List Slot)
    (slot : Slot) : Option ProcId :=
  if slot ∈ slots then w.referentAfter gc opened slot else w.referent slot

/-- What holds after the visits of some of the slots: the table and the slots
are together, and the other slots are as they were. -/
structure Visited (w : LifeWorld) (opened : Slot → ProcId) (slots : List Slot)
    (x : GcState × PidfdTable) : Prop where
  tracks : Tracks x.1.pidfds (visitedReferent w x.1 opened slots) x.2
  rest : ∀ slot, slot ∉ slots → slotView slot x.1 = slotView slot w.gc

theorem Visited.step {w : LifeWorld} {slots : List Slot} {slot : Slot}
    {x x' : GcState × PidfdTable} (h : Visited w opened slots x) (hnew : slot ∉ slots)
    (hstep : VisitStep probes opened x slot x') : Visited w opened (slots ++ [slot]) x' := by
  obtain ⟨hanswer, rfl⟩ := hstep
  obtain ⟨e, hpidfds, hchange⟩ := visit_change (probes slot) slot x.1
  have hframe : ∀ i, i ≠ slot → slotView i (gcScanSlot (probes slot) slot x.1) = slotView i x.1 :=
    fun i hi => gcScanSlot_frame (probes slot) hi.symm x.1
  refine ⟨?_, ?_⟩
  · have htracks := h.tracks.change hchange hanswer
    rw [← hpidfds] at htracks
    refine htracks.congr fun i _ => ?_
    by_cases his : i = slot
    · subst his
      have hentry : (gcScanSlot (probes i) i x.1).pidfds i = e := by
        rw [hpidfds, Function.update_self]
      rw [Function.update_self, visitedReferent, if_pos (by simp), LifeWorld.referentAfter,
        visitedReferent, if_neg hnew, referentOf, hentry, h.rest i hnew]
    · have hsame : (gcScanSlot (probes slot) slot x.1).pidfds i = x.1.pidfds i :=
        congrArg SlotView.entry (hframe i his)
      rw [Function.update_of_ne his, visitedReferent, visitedReferent, LifeWorld.referentAfter,
        LifeWorld.referentAfter, hsame]
      simp [his]
  · intro i hi
    rw [List.mem_append, List.mem_singleton, not_or] at hi
    rw [hframe i hi.2]
    exact h.rest i hi.1

/-- After the whole scan the table and the slots are together. -/
theorem tracks_scan {w : LifeWorld} (h : Tracks w.gc.pidfds w.referent t)
    (hrun : Run (VisitStep probes opened) (w.gc, t) (List.finRange maxProcesses) (g', t')) :
    g' = gcScanAndRegister probes w.gc ∧
      Tracks g'.pidfds (w.referentAfter g' opened) t' := by
  refine ⟨visits_gc hrun, ?_⟩
  have hvisited : (List.finRange maxProcesses).Nodup →
      Visited w opened (List.finRange maxProcesses) (g', t') := by
    refine hrun.history (P := fun slots (x : GcState × PidfdTable) =>
      slots.Nodup → Visited w opened slots x) ?_ ?_
    · intro _
      refine ⟨h.congr fun slot _ => ?_, fun slot _ => rfl⟩
      rw [visitedReferent, if_neg (by simp)]
    · intro slots slot x x' hbefore hstep hnodup
      rw [List.nodup_append] at hnodup
      refine (hbefore hnodup.1).step (fun hmem => ?_) hstep
      exact hnodup.2.2 slot hmem slot (by simp) rfl
  refine (hvisited (List.nodup_finRange maxProcesses)).tracks.congr fun slot _ => ?_
  rw [visitedReferent, if_pos (List.mem_finRange slot)]

end Scan

/-! ## The loop -/

/-- `GC_EPOLL_MAX_EVENTS`. -/
def gcEpollMaxEvents : Nat := 64

/-- The world of `ProcessLife`, the open pidfds, and the events that are still to
be handled; `none` in `epoll_wait`. -/
structure LoopWorld extends LifeWorld where
  pidfdTable : PidfdTable
  pending : Option (List Slot)

/-- What happens to the processes is none of the loop's doing. -/
def OfProcesses : LifeEvent → Prop
  | .start _ | .publish _ _ _ | .die _ => True
  | .exitEvent _ | .scan _ _ => False

/-- A pidfd that `epoll_wait` reports with this slot: it is registered with it,
and its process is dead. -/
def Readable (w : LoopWorld) (fd : Int) (slot : Slot) : Prop :=
  ∃ p ∈ w.dead, w.pidfdTable fd = some ⟨p, some slot⟩

inductive LoopEvent where
  | life (e : LifeEvent)
  | wake (slots : List Slot)
  | handle (slot : Slot)
  | scan (probes : Slot → SlotProbe) (opened : Slot → ProcId)

/-- The loop of `gc_thread_func`, among everything else that happens.  The calls
of an exit event open nothing, so that no process is looked up. -/
inductive LoopStep : LoopWorld → LoopEvent → LoopWorld → Prop
  | life {w : LoopWorld} {e : LifeEvent} {life : LifeWorld} : OfProcesses e →
      LifeStep w.toLifeWorld e life → LoopStep w (.life e) { w with toLifeWorld := life }
  | wake {w : LoopWorld} {fds : List Int} {slots : List Slot} : w.pending = none →
      slots.length ≤ gcEpollMaxEvents → fds.Nodup → List.Forall₂ (Readable w) fds slots →
      LoopStep w (.wake slots) { w with pending := some slots }
  | handle {w : LoopWorld} {slot : Slot} {rest : List Slot} {p : ProcId} :
      w.pending = some (slot :: rest) →
      LoopStep w (.handle slot)
        { toLifeWorld := w.toLifeWorld.afterExitEvent slot
          pidfdTable := pidfdsAfter p w.pidfdTable (exitCalls slot w.gc)
          pending := some rest }
  | scan {w : LoopWorld} {probes : Slot → SlotProbe} {opened : Slot → ProcId} {gc : GcState}
      {t : PidfdTable} : w.pending = some [] →
      (∀ slot, Opens (slotView slot w.gc) → 0 ≤ (probes slot).pidfdOpen →
        OpenedAs w.toLifeWorld slot (opened slot)) →
      Run (VisitStep probes opened) (w.gc, w.pidfdTable) (List.finRange maxProcesses) (gc, t) →
      LoopStep w (.scan probes opened)
        { toLifeWorld := w.toLifeWorld.afterCollect gc (w.toLifeWorld.referentAfter gc opened)
          pidfdTable := t
          pending := none }

/-- The events as `ProcessLife` knows them. -/
def LoopEvent.lifeEvent : LoopEvent → Option LifeEvent
  | life e => some e
  | wake _ => none
  | handle slot => some (.exitEvent slot)
  | scan probes opened => some (.scan probes opened)

/-- The loop begins: nobody has published anything, and the first scan has been
made. -/
structure LoopStart (w : LoopWorld) : Prop where
  life : LifeStart w.toLifeWorld
  scanned : ∃ probes, w.gc = gcThreadStart probes SharedMemory.zeroed w.gc.tenant
  pidfdTable : ∀ fd, w.pidfdTable fd = none
  pending : w.pending = none

/-! ### Its invariant -/

/-- A slot whose event is waiting: it has a descriptor, and the process that it
refers to is dead. -/
def Due (w : LoopWorld) (slot : Slot) : Prop :=
  0 ≤ (w.gc.pidfds slot).pidfd ∧ ∃ p ∈ w.dead, w.referent slot = some p

structure LoopInv (w : LoopWorld) : Prop where
  tracks : Tracks w.gc.pidfds w.referent w.pidfdTable
  due : ∀ slots, w.pending = some slots → slots.Nodup ∧ ∀ slot ∈ slots, Due w slot

/-- The zeroed table counts as registered with descriptor 0, which the first scan
drops wherever there is no process. -/
theorem gcThreadStart_unregistered (probes : Slot → SlotProbe)
    (tenant : SharedMemoryTenant.TenantSharedMemory) (slot : Slot) :
    (gcThreadStart probes SharedMemory.zeroed tenant).pidfds slot = .unregistered := by
  have hview := congrArg SlotView.entry (gcScanAndRegister_slot probes slot
    ⟨SharedMemory.zeroed, tenant, fun _ => ⟨0, 0, 0⟩, []⟩)
  rw [slotView_entry] at hview
  rw [gcThreadStart, hview]
  rfl

theorem LoopStart.inv {w : LoopWorld} (h : LoopStart w) : LoopInv w where
  tracks := by
    obtain ⟨probes, hgc⟩ := h.scanned
    refine ⟨fun slot hslot => ?_, fun fd hfd => absurd (h.pidfdTable fd) hfd⟩
    rw [hgc, gcThreadStart_unregistered] at hslot
    exact absurd hslot (by decide)
  due slots hslots := by
    rw [h.pending] at hslots
    cases hslots

/-- What happens to the processes leaves the collector's side alone. -/
theorem lifeStep_collector {w w' : LifeWorld} {e : LifeEvent} (hstep : LifeStep w e w')
    (he : OfProcesses e) :
    w'.gc.pidfds = w.gc.pidfds ∧ w'.referent = w.referent ∧ w.dead ⊆ w'.dead := by
  cases hstep with
  | start | publish => exact ⟨rfl, rfl, Finset.Subset.refl _⟩
  | die => exact ⟨rfl, rfl, Finset.subset_insert _ _⟩
  | exitEvent | scan => exact he.elim

theorem Readable.due {w : LoopWorld} (h : LoopInv w) {fd : Int} {slot : Slot}
    (hread : Readable w fd slot) : Due w slot ∧ (w.gc.pidfds slot).pidfd = fd := by
  obtain ⟨p, hdead, hfd⟩ := hread
  obtain ⟨hpos, hslot, hreferent⟩ := h.tracks.slot_of_registered hfd
  exact ⟨⟨hslot ▸ hpos, p, hdead, hreferent⟩, hslot⟩

/-- What is reported are different slots, each with its event. -/
theorem reported_due {w : LoopWorld} (h : LoopInv w) {fds : List Int} {slots : List Slot}
    (hnodup : fds.Nodup) (hread : List.Forall₂ (Readable w) fds slots) :
    slots.Nodup ∧ ∀ slot ∈ slots, Due w slot := by
  have hfds : fds = slots.map fun slot => (w.gc.pidfds slot).pidfd := by
    rw [← List.forall₂_eq_eq_eq, List.forall₂_map_right_iff]
    exact hread.imp fun fd slot hr => (hr.due h).2.symm
  rw [hfds] at hnodup
  refine ⟨hnodup.of_map _, ?_⟩
  clear hfds hnodup
  induction hread with
  | nil => exact fun slot hslot => absurd hslot List.not_mem_nil
  | cons hr _ ih =>
      intro slot hslot
      rcases List.mem_cons.mp hslot with rfl | hmem
      · exact (hr.due h).1
      · exact ih slot hmem

/-- An event that is handled leaves the other events waiting. -/
theorem Due.handle {w : LoopWorld} {slot i : Slot} (h : Due w i) (hne : i ≠ slot)
    (t : PidfdTable) (pending : Option (List Slot)) :
    Due ⟨w.toLifeWorld.afterExitEvent slot, t, pending⟩ i := by
  obtain ⟨hopen, p, hdead, hreferent⟩ := h
  refine ⟨?_, p, hdead, ?_⟩
  · show 0 ≤ ((gcHandleProcessExit slot w.gc).pidfds i).pidfd
    rw [(exitEvent_entry hne w.gc).2.2]
    exact hopen
  · show Function.update w.referent slot none i = some p
    rw [Function.update_of_ne hne, hreferent]

theorem LoopInv.handle {w : LoopWorld} (h : LoopInv w) {slot : Slot} {rest : List Slot}
    (hpending : w.pending = some (slot :: rest)) (p : ProcId) :
    LoopInv ⟨w.toLifeWorld.afterExitEvent slot,
      pidfdsAfter p w.pidfdTable (exitCalls slot w.gc), some rest⟩ := by
  obtain ⟨hnodup, hdue⟩ := h.due _ hpending
  rw [List.nodup_cons] at hnodup
  have hopen := (hdue slot List.mem_cons_self).1
  rw [exitCalls_eq hopen]
  constructor
  · have hdrop : SlotChange slot ⟨-1, false, none⟩ (w.gc.pidfds slot) False .unregistered
        [.close (w.gc.pidfds slot).pidfd, .epollDel (w.gc.pidfds slot).pidfd] := .drop id hopen
    have htracks := h.tracks.change (p := p) hdrop trivial
    rw [← gcHandleProcessExit_pidfds] at htracks
    exact htracks
  · rintro _ ⟨⟩
    refine ⟨hnodup.2, fun i hi => ?_⟩
    refine (hdue i (List.mem_cons_of_mem slot hi)).handle ?_ _ _
    rintro rfl
    exact hnodup.1 hi

theorem LoopInv.step {w w' : LoopWorld} {e : LoopEvent} (h : LoopInv w)
    (hstep : LoopStep w e w') : LoopInv w' := by
  cases hstep with
  | life he hlife =>
      obtain ⟨hpidfds, hreferent, hdead⟩ := lifeStep_collector hlife he
      constructor
      · show Tracks _ _ w.pidfdTable
        rw [hpidfds, hreferent]
        exact h.tracks
      · intro slots hslots
        obtain ⟨hnodup, hdue⟩ := h.due slots hslots
        refine ⟨hnodup, fun slot hslot => ?_⟩
        obtain ⟨hopen, p, hp, hreferent'⟩ := hdue slot hslot
        exact ⟨hpidfds ▸ hopen, p, hdead hp, hreferent ▸ hreferent'⟩
  | wake _ _ hnodup hread =>
      refine ⟨h.tracks, ?_⟩
      rintro _ ⟨⟩
      exact reported_due h hnodup hread
  | handle hpending => exact h.handle hpending _
  | scan _ _ hrun =>
      obtain ⟨-, htracks⟩ := tracks_scan h.tracks hrun
      exact ⟨htracks, nofun⟩

/-! ### The refinement -/

/-- Every step is a step of `ProcessLife`, or shows nothing there. -/
theorem LoopStep.lifeStep {w w' : LoopWorld} {e : LoopEvent} {e' : LifeEvent} (h : LoopInv w)
    (hstep : LoopStep w e w') (he : e.lifeEvent = some e') :
    LifeStep w.toLifeWorld e' w'.toLifeWorld := by
  cases hstep with
  | life _ hlife =>
      obtain rfl := Option.some.inj he
      exact hlife
  | wake => cases he
  | @handle slot rest _ hpending =>
      obtain rfl := Option.some.inj he
      obtain ⟨-, p, hdead, hreferent⟩ := (h.due _ hpending).2 slot List.mem_cons_self
      exact .exitEvent hreferent hdead
  | scan _ hopened hrun =>
      obtain rfl := Option.some.inj he
      obtain ⟨rfl, -⟩ := tracks_scan h.tracks hrun
      exact .scan hopened

theorem LoopStep.silent {w w' : LoopWorld} {e : LoopEvent} (hstep : LoopStep w e w')
    (he : e.lifeEvent = none) : w'.toLifeWorld = w.toLifeWorld := by
  cases hstep with
  | wake => rfl
  | life | handle | scan => cases he

/-- **The event loop.**  From its start on an empty process table, whatever the
processes do, the loop is a run of `ProcessLife`: each exit event that it handles
is for a slot whose registered process is dead.  The epoll instance watches
exactly the descriptors of `gc_pidfd_table`, each for its slot, and no other
pidfd is open. -/
theorem gc_loop_refines_life {w₀ w : LoopWorld} {events : List LoopEvent} (hstart : LoopStart w₀)
    (hrun : Run LoopStep w₀ events w) :
    Run LifeStep w₀.toLifeWorld (events.filterMap LoopEvent.lifeEvent) w.toLifeWorld ∧
      (∀ fd slot, (∃ p, w.pidfdTable fd = some ⟨p, some slot⟩) ↔
        0 ≤ fd ∧ (w.gc.pidfds slot).pidfd = fd) ∧
      ∀ fd, w.pidfdTable fd ≠ none → ∃ slot, (w.gc.pidfds slot).pidfd = fd := by
  have hkeep : ∀ w₁ e w₂, LoopInv w₁ → LoopStep w₁ e w₂ → LoopInv w₂ :=
    fun _ _ _ h hstep => h.step hstep
  have hinv : LoopInv w := hrun.invariant hstart.inv hkeep
  refine ⟨?_, fun fd slot => ⟨?_, ?_⟩, fun fd hfd => (hinv.tracks.held fd hfd).2⟩
  · exact (hrun.guarded hstart.inv hkeep).refines (fun _ _ _ _ h he => h.2.lifeStep h.1 he)
      (fun _ _ _ h he => h.2.silent he)
  · rintro ⟨p, hfd⟩
    obtain ⟨hpos, hslot, -⟩ := hinv.tracks.slot_of_registered hfd
    exact ⟨hpos, hslot⟩
  · rintro ⟨hpos, rfl⟩
    obtain ⟨p, -, hrecord⟩ := hinv.tracks.opened slot hpos
    exact ⟨p, hrecord⟩

/-! ### One process that exits -/

/-- A visit is answered if its `pidfd_open` fails, or finds its descriptor free
where there was none before. -/
theorem answered_of_change {slot : Slot} {probe : SlotProbe} {e e' : PidfdEntry} {opens : Prop}
    {calls : List FdCall} (h : SlotChange slot probe e opens e' calls) {p : ProcId}
    {t : PidfdTable}
    (hfree : probe.pidfdOpen < 0 ∨ (e.pidfd < 0 ∧ t probe.pidfdOpen = none)) :
    Answered p t calls := by
  cases h with
  | keep | clear | drop => trivial
  | register pid start _ _ =>
      have hok : probe.pidfdOpen < 0 ∨ t probe.pidfdOpen = none := hfree.imp_right And.right
      unfold registerCalls
      split
      · exact ⟨trivial, hok⟩
      · split
        · exact ⟨trivial, hok⟩
        · exact ⟨trivial, hok⟩
  | replace pid start _ hopen =>
      have hfail : probe.pidfdOpen < 0 := hfree.resolve_right fun h => by omega
      rw [registerCalls, if_pos hfail]
      exact ⟨trivial, .inl hfail⟩

/-- Visits that open nothing can be made. -/
theorem visits_failed {probes : Slot → SlotProbe} {opened : Slot → ProcId} {slots : List Slot}
    (hfail : ∀ slot ∈ slots, (probes slot).pidfdOpen < 0) (x : GcState × PidfdTable) :
    ∃ x', Run (VisitStep probes opened) x slots x' := by
  induction slots generalizing x with
  | nil => exact ⟨x, .start⟩
  | cons slot slots ih =>
      obtain ⟨e, -, hchange⟩ := visit_change (probes slot) slot x.1
      have hanswer := answered_of_change hchange (p := opened slot) (t := x.2)
        (.inl (hfail slot List.mem_cons_self))
      obtain ⟨x', hrun⟩ := ih (fun i hi => hfail i (List.mem_cons_of_mem slot hi)) (_, _)
      exact ⟨x', hrun.cons ⟨hanswer, rfl⟩⟩

/-- The kernel opens descriptor 5 for the first slot and nothing else. -/
def firstProbes (slot : Slot) : SlotProbe :=
  if slot = 0 then ⟨5, true, some asleep⟩ else ⟨-1, false, some asleep⟩

theorem finRange_head (n : Nat) [NeZero n] : ∃ slots, List.finRange n = 0 :: slots := by
  cases n with
  | zero => exact absurd rfl (NeZero.ne 0)
  | succ n => exact ⟨_, List.finRange_succ⟩

theorem visits_first (g : GcState) {t : PidfdTable} (hunreg : (g.pidfds 0).pidfd < 0)
    (hfree : t 5 = none) : ∃ gc t', Run (VisitStep firstProbes fun _ => process100) (g, t)
      (List.finRange maxProcesses) (gc, t') := by
  obtain ⟨slots, hslots⟩ := finRange_head maxProcesses
  have hnodup := List.nodup_finRange maxProcesses
  rw [hslots, List.nodup_cons] at hnodup
  have hfail : ∀ slot ∈ slots, (firstProbes slot).pidfdOpen < 0 := by
    intro slot hslot
    have hne : slot ≠ 0 := by
      rintro rfl
      exact hnodup.1 hslot
    simp [firstProbes, hne]
  obtain ⟨e, -, hchange⟩ := visit_change (firstProbes 0) 0 g
  have hanswer : Answered process100 t (visitCalls (firstProbes 0) 0 g) :=
    answered_of_change hchange (.inr ⟨hunreg, hfree⟩)
  have hfirst : VisitStep firstProbes (fun _ => process100) (g, t) 0 (_, _) := ⟨hanswer, rfl⟩
  obtain ⟨⟨gc, t'⟩, hrest⟩ := visits_failed hfail (_, _)
  rw [hslots]
  exact ⟨gc, t', hrest.cons hfirst⟩

/-- The process has started and published, and `epoll_wait` has timed out. -/
def LoopWorld.timedOut (w : LoopWorld) : LoopWorld where
  toLifeWorld := (w.toLifeWorld.afterStart process100).afterPublish process100 ⟨1, 0, 0⟩
    (some stat100)
  pidfdTable := w.pidfdTable
  pending := some []

namespace LoopStart

variable {w₀ : LoopWorld} (h : LoopStart w₀)

include h

theorem timedOut_run : Run LoopStep w₀
    [.life (.start process100), .life (.publish process100 ⟨1, 0, 0⟩ (some stat100)), .wake []]
    w₀.timedOut := by
  have hstart : LifeStep w₀.toLifeWorld (.start process100)
      (w₀.toLifeWorld.afterStart process100) := by
    refine .start ?_ ?_ (by decide) ?_
    · simp [h.life.running]
    · simp [h.life.dead]
    · simp [h.life.running]
  have hpublish : LifeStep (w₀.toLifeWorld.afterStart process100)
      (.publish process100 ⟨1, 0, 0⟩ (some stat100)) w₀.timedOut.toLifeWorld :=
    .publish (Finset.mem_insert_self _ _)
  have hwake : LoopStep ⟨w₀.timedOut.toLifeWorld, w₀.pidfdTable, w₀.pending⟩ (.wake [])
      w₀.timedOut :=
    .wake h.pending (Nat.zero_le _) List.nodup_nil .nil
  exact ((Run.start.snoc (.life trivial hstart)).snoc (.life trivial hpublish)).snoc hwake

theorem timedOut_running : w₀.timedOut.running = {process100} := by
  show insert process100 w₀.running = {process100}
  rw [h.life.running]
  rfl

theorem timedOut_pids : w₀.timedOut.gc.shm.processPids =
    Function.update SharedMemory.zeroed.processPids 0 100 := by
  show (shmUpdateProcessResources 100 ⟨1, 0, 0⟩ (shmReadProcStartTime (some stat100))
    w₀.gc.shm).2.processPids = _
  rw [h.life.shm, update_zeroed (by decide)]
  rfl

theorem timedOut_unregistered : (w₀.timedOut.gc.pidfds 0).pidfd < 0 := by
  obtain ⟨probes, hgc⟩ := h.scanned
  show (w₀.gc.pidfds 0).pidfd < 0
  rw [hgc, gcThreadStart_unregistered]
  decide

theorem timedOut_opened (slot : Slot) (hopens : Opens (slotView slot w₀.timedOut.gc)) :
    OpenedAs w₀.timedOut.toLifeWorld slot process100 := by
  have hslot : slot = 0 := by
    by_contra hne
    have hpid : w₀.timedOut.gc.shm.processPids slot = 0 := by
      rw [h.timedOut_pids, Function.update_of_ne hne]
      rfl
    exact hopens.1 hpid
  subst hslot
  have hpid : w₀.timedOut.gc.shm.processPids 0 = 100 := by
    rw [h.timedOut_pids, Function.update_self]
  refine ⟨hpid.symm, fun q hq _ => ?_⟩
  rw [h.timedOut_running] at hq
  exact (Finset.mem_singleton.mp hq).symm

/-- The scan has registered the process with descriptor 5. -/
theorem exists_registered : ∃ w,
    LoopStep w₀.timedOut (.scan firstProbes fun _ => process100) w ∧
      (w.gc.pidfds 0).pidfd = 5 ∧ w.referent 0 = some process100 ∧ process100 ∈ w.running ∧
      w.pending = none := by
  have hfree : w₀.timedOut.pidfdTable 5 = none := h.pidfdTable 5
  have hpid : w₀.timedOut.gc.shm.processPids 0 ≠ 0 := by
    rw [h.timedOut_pids, Function.update_self]
    decide
  have hopens : Opens (slotView 0 w₀.timedOut.gc) := ⟨hpid, .inl h.timedOut_unregistered⟩
  obtain ⟨gc, t, hvisits⟩ := visits_first w₀.timedOut.gc h.timedOut_unregistered hfree
  have hentry := gcScanAndRegister_registers firstProbes hpid h.timedOut_unregistered
    (by simp [firstProbes]) (by simp [firstProbes])
  have hgc : gc = gcScanAndRegister firstProbes w₀.timedOut.gc := visits_gc hvisits
  have hfd : (gc.pidfds 0).pidfd = 5 := by
    rw [hgc, hentry]
    rfl
  refine ⟨_, .scan rfl (fun slot hslot _ => h.timedOut_opened slot hslot) hvisits, hfd, ?_, ?_,
    rfl⟩
  · show w₀.timedOut.toLifeWorld.referentAfter gc (fun _ => process100) 0 = some process100
    rw [LifeWorld.referentAfter, hfd, if_neg (by decide), if_pos hopens]
  · show process100 ∈ w₀.timedOut.running
    rw [h.timedOut_running]
    exact Finset.mem_singleton_self _

end LoopStart

/-- The loop when it begins. -/
def startedLoop : LoopWorld where
  toLifeWorld := { emptyWorld with
    gc := gcThreadStart firstProbes SharedMemory.zeroed SharedMemoryTenant.zeroed }
  pidfdTable := fun _ => none
  pending := none

theorem startedLoop_start : LoopStart startedLoop where
  life := by
    refine ⟨gcScanAndRegister_shm_of_alive (fun slot => ?_) _, rfl, rfl, fun _ => rfl,
      fun _ => rfl⟩
    unfold firstProbes
    split
    · exact asleep_shows.alive
    · exact asleep_shows.alive
  scanned := by
    refine ⟨firstProbes, ?_⟩
    have htenant : startedLoop.gc.tenant = SharedMemoryTenant.zeroed :=
      gcScanAndRegister_tenant firstProbes _
    rw [htenant]
    rfl
  pidfdTable := fun _ => rfl
  pending := rfl

/-- The process exits, its pidfd is reported, and its event is handled. -/
theorem gc_loop_refines_exit : ∃ events w, LoopEvent.handle 0 ∈ events ∧
    Run LoopStep startedLoop events w ∧
    Run LifeStep startedLoop.toLifeWorld (events.filterMap LoopEvent.lifeEvent) w.toLifeWorld := by
  obtain ⟨w, hscan, hfd, hreferent, hrunning, hpending⟩ := startedLoop_start.exists_registered
  have hrun := startedLoop_start.timedOut_run.snoc hscan
  have hinv : LoopInv w :=
    hrun.invariant startedLoop_start.inv fun _ _ _ h hstep => h.step hstep
  obtain ⟨p, hp, hrecord⟩ := hinv.tracks.opened 0 (by rw [hfd]; decide)
  obtain rfl : process100 = p := Option.some.inj (hreferent.symm.trans hp)
  rw [hfd] at hrecord
  have hdie : LoopStep w (.life (.die process100))
      ⟨w.toLifeWorld.afterDeath process100, w.pidfdTable, w.pending⟩ :=
    .life trivial (.die hrunning)
  have hread : Readable ⟨w.toLifeWorld.afterDeath process100, w.pidfdTable, w.pending⟩ 5 0 :=
    ⟨process100, Finset.mem_insert_self _ _, hrecord⟩
  have hwake : LoopStep ⟨w.toLifeWorld.afterDeath process100, w.pidfdTable, w.pending⟩ (.wake [0])
      ⟨w.toLifeWorld.afterDeath process100, w.pidfdTable, some [0]⟩ :=
    .wake hpending (by decide) (List.nodup_singleton 5) (.cons hread .nil)
  have hhandle : LoopStep ⟨w.toLifeWorld.afterDeath process100, w.pidfdTable, some [0]⟩
      (.handle 0) _ := .handle (p := process100) rfl
  have hall := ((hrun.snoc hdie).snoc hwake).snoc hhandle
  exact ⟨_, _, by simp, hall, (gc_loop_refines_life startedLoop_start hall).1⟩

end MtRdma.Ports.GcEventLoop
