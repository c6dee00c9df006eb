import MtRdma.Verified.Descriptors
import MtRdma.Ports.ProcessLife

/-!
# The collector's descriptors (`collector_server_shm.c`)

The garbage collector keeps one pidfd per slot in `gc_pidfd_table`.  Here its
calls on descriptors act on the table of open descriptors of the process, which
other threads of the collector use as well, and `pidfd_open` gets the lowest
number that is free.

A thread that starts from entries without a descriptor closes nothing but what
it has opened, and its table is right at every moment until the clean-up.  The
source fills the table with zeros instead, and 0 is a descriptor.
-/

namespace MtRdma.Ports.GcDescriptors

open Verified.Runs
open Verified.Descriptors
open SharedMemory
open SharedMemoryTenant (TenantSharedMemory)
open CollectorGc
open ProcessLife (Opens)

/-! ## Calls and the table -/

/-- What a descriptor of the process refers to: something that another thread
has opened, the epoll instance, or a process that this thread has opened a
pidfd for. -/
inductive FdObject where
  | foreign
  | epoll
  | process (pid : Int)
  deriving Repr, DecidableEq

abbrev FdTable := Table FdObject

/-- What a call does to the table. -/
def effect (t : FdTable) : FdCall → FdTable
  | .close fd => Function.update t fd none
  | .pidfdOpen pid fd => if fd < 0 then t else Function.update t fd (some (.process pid))
  | .epollAdd _ _ => t
  | .epollDel _ => t

/-- The table after a list of calls, the latest first. -/
def tableAfter (t : FdTable) : List FdCall → FdTable
  | [] => t
  | call :: earlier => effect (tableAfter t earlier) call

/-- `P` holds of every call and the table it is made on. -/
def Along (P : FdTable → FdCall → Prop) (t : FdTable) : List FdCall → Prop
  | [] => True
  | call :: earlier => Along P t earlier ∧ P (tableAfter t earlier) call

/-- `pidfd_open` fails or returns the lowest free descriptor. -/
def Answer (t : FdTable) : FdCall → Prop
  | .pidfdOpen _ fd => fd < 0 ∨ LowestFree t fd
  | _ => True

/-- What is closed is a pidfd of this thread, and open. -/
def ClosesPidfd (t : FdTable) : FdCall → Prop
  | .close fd => ∃ pid, t fd = some (.process pid)
  | _ => True

/-- What is closed is a pidfd of this thread or its epoll descriptor, and
open. -/
def ClosesOwn (epollFd : Int) (t : FdTable) : FdCall → Prop
  | .close fd => (∃ pid, t fd = some (.process pid)) ∨ (fd = epollFd ∧ t fd = some .epoll)
  | _ => True

theorem tableAfter_append (t : FdTable) (later earlier : List FdCall) :
    tableAfter t (later ++ earlier) = tableAfter (tableAfter t earlier) later := by
  induction later with
  | nil => rfl
  | cons call later ih => rw [List.cons_append, tableAfter, tableAfter, ih]

theorem along_append {P : FdTable → FdCall → Prop} {t : FdTable} {later earlier : List FdCall} :
    Along P t (later ++ earlier) ↔ Along P t earlier ∧ Along P (tableAfter t earlier) later := by
  induction later with
  | nil => exact ⟨fun h => ⟨h, trivial⟩, fun h => h.1⟩
  | cons call later ih =>
      rw [List.cons_append, Along, Along, ih, tableAfter_append, and_assoc]

theorem Along.mono {P Q : FdTable → FdCall → Prop} (hPQ : ∀ t call, P t call → Q t call)
    {t : FdTable} {calls : List FdCall} (h : Along P t calls) : Along Q t calls := by
  induction calls with
  | nil => trivial
  | cons call calls ih => exact ⟨ih h.1, hPQ _ _ h.2⟩

theorem along_of_forall {P : FdTable → FdCall → Prop} {calls : List FdCall}
    (h : ∀ call ∈ calls, ∀ t, P t call) (t : FdTable) : Along P t calls := by
  induction calls with
  | nil => trivial
  | cons call calls ih =>
      exact ⟨ih fun c hc => h c (List.mem_cons_of_mem call hc), h call List.mem_cons_self _⟩

theorem ClosesPidfd.own {t : FdTable} {call : FdCall} (epollFd : Int) (h : ClosesPidfd t call) :
    ClosesOwn epollFd t call := by
  cases call with
  | close fd => exact .inl h
  | _ => trivial

/-- Whatever is not a pidfd stays open. -/
theorem tableAfter_kept {t : FdTable} {calls : List FdCall} (hanswer : Along Answer t calls)
    (hcloses : Along ClosesPidfd t calls) {fd : Int} {x : FdObject} (hfd : t fd = some x)
    (hx : ∀ pid, x ≠ .process pid) : tableAfter t calls fd = some x := by
  induction calls with
  | nil => exact hfd
  | cons call calls ih =>
      have hbefore := ih hanswer.1 hcloses.1
      cases call with
      | close k =>
          obtain ⟨pid, hk⟩ := hcloses.2
          have hne : fd ≠ k := by
            intro heq
            rw [← heq, hbefore, Option.some_inj] at hk
            exact hx pid hk
          exact (Function.update_of_ne hne _ _).trans hbefore
      | pidfdOpen pid k =>
          show (if k < 0 then tableAfter t calls else _) fd = _
          split
          · exact hbefore
          · rename_i hk
            have hfree := (hanswer.2.resolve_left hk).free
            have hne : fd ≠ k := by
              intro heq
              rw [← heq, hbefore] at hfree
              cases hfree
            exact (Function.update_of_ne hne _ _).trans hbefore
      | epollAdd | epollDel => exact hbefore

/-! ## One action of the thread -/

/-- One iteration of the scan, or one exit event. -/
inductive GcAction where
  | visit (slot : Slot) (probe : SlotProbe)
  | exit (slot : Slot)

namespace GcAction

def slot : GcAction → Slot
  | visit slot _ => slot
  | exit slot => slot

/-- The action, with the calls that it makes. -/
def perform : GcAction → GcState → GcState
  | visit slot probe, g => gcScanSlot probe slot { g with calls := [] }
  | exit slot, g => gcHandleProcessExit slot { g with calls := [] }

end GcAction

/-- The calls of `gc_register_pidfd` on a slot without a descriptor. -/
def registerCalls (slot : Slot) (pid : Int) (probe : SlotProbe) : List FdCall :=
  if probe.pidfdOpen < 0 then [.pidfdOpen pid probe.pidfdOpen]
  else if probe.epollAdd then
    [.epollAdd probe.pidfdOpen slot, .pidfdOpen pid probe.pidfdOpen]
  else
    [.close probe.pidfdOpen, .epollAdd probe.pidfdOpen slot, .pidfdOpen pid probe.pidfdOpen]

theorem gcRegisterPidfd_calls {slot : Slot} {g : GcState} (h : (g.pidfds slot).pidfd < 0)
    (pid : Int) (start : UInt64) (probe : SlotProbe) :
    (gcRegisterPidfd slot pid start probe g).calls = registerCalls slot pid probe ++ g.calls := by
  have hdrop : (gcDropPidfd slot g).calls = g.calls := if_neg (by omega)
  unfold gcRegisterPidfd registerCalls
  dsimp only
  by_cases hopen : probe.pidfdOpen < 0
  · simp [hopen, hdrop]
  · cases hadd : probe.epollAdd with
    | false | true => simp [hopen, hdrop]

/-- All that an action can do to the entry of its slot, with the calls.
`opens` says whether a pidfd is asked for. -/
inductive SlotChange (slot : Slot) (probe : SlotProbe) (e : PidfdEntry) (opens : Prop) :
    PidfdEntry → List FdCall → Prop
  | keep : ¬opens → SlotChange slot probe e opens e []
  | clear : ¬opens → e.pidfd < 0 → SlotChange slot probe e opens .unregistered []
  | drop : ¬opens → 0 ≤ e.pidfd →
      SlotChange slot probe e opens .unregistered [.close e.pidfd, .epollDel e.pidfd]
  | register (pid : Int) (start : UInt64) : opens → e.pidfd < 0 →
      SlotChange slot probe e opens (registered pid start probe) (registerCalls slot pid probe)
  | replace (pid : Int) (start : UInt64) : opens → 0 ≤ e.pidfd →
      SlotChange slot probe e opens (registered pid start probe)
        (registerCalls slot pid probe ++ [.close e.pidfd])

theorem gcDropPidfd_change (slot : Slot) (probe : SlotProbe) {g : GcState}
    (hcalls : g.calls = []) {opens : Prop} (hno : ¬opens) :
    ∃ e, (gcDropPidfd slot g).pidfds = Function.update g.pidfds slot e ∧
      SlotChange slot probe (g.pidfds slot) opens e (gcDropPidfd slot g).calls := by
  refine ⟨.unregistered, rfl, ?_⟩
  unfold gcDropPidfd
  dsimp only
  rw [hcalls]
  split
  · rename_i h
    exact .drop hno h
  · rename_i h
    exact .clear hno (not_le.mp h)

theorem gcScanSlot_change (probe : SlotProbe) (slot : Slot) {g : GcState} (hcalls : g.calls = []) :
    ∃ e, (gcScanSlot probe slot g).pidfds = Function.update g.pidfds slot e ∧
      SlotChange slot probe (g.pidfds slot) (Opens (slotView slot g)) e
        (gcScanSlot probe slot g).calls := by
  have hkeep : ¬Opens (slotView slot g) → ∃ e, g.pidfds = Function.update g.pidfds slot e ∧
      SlotChange slot probe (g.pidfds slot) (Opens (slotView slot g)) e g.calls := by
    intro hno
    refine ⟨g.pidfds slot, (Function.update_eq_self slot g.pidfds).symm, ?_⟩
    rw [hcalls]
    exact .keep hno
  unfold gcScanSlot
  by_cases hpid : g.shm.processPids slot = 0
  · have hno : ¬Opens (slotView slot g) := fun h => h.1 hpid
    rw [if_pos hpid]
    split
    · exact gcDropPidfd_change slot probe hcalls hno
    · exact hkeep hno
  · rw [if_neg hpid]
    by_cases hneg : (g.pidfds slot).pidfd < 0
    · -- not registered: the slot is registered, and emptied if that fails and its process is dead
      have hregister : ∃ e, (gcRegisterPidfd slot (g.shm.processPids slot)
            (g.shm.processStartTimes slot) probe g).pidfds = Function.update g.pidfds slot e ∧
          SlotChange slot probe (g.pidfds slot) (Opens (slotView slot g)) e
            (gcRegisterPidfd slot (g.shm.processPids slot) (g.shm.processStartTimes slot) probe
              g).calls := by
        refine ⟨_, gcRegisterPidfd_pidfds .., ?_⟩
        rw [gcRegisterPidfd_calls hneg, hcalls, List.append_nil]
        exact .register _ _ ⟨hpid, .inl hneg⟩ hneg
      rw [if_pos hneg]
      dsimp only
      split
      · exact hregister
      · exact hregister
    · rw [if_neg hneg]
      by_cases hsame : SlotUnchanged slot g
      · have hno : ¬Opens (slotView slot g) := fun h =>
          h.2.elim (fun hlt => hneg hlt) fun hchanged => hchanged hsame
        rw [if_neg (not_not.mpr hsame)]
        split
        · exact gcDropPidfd_change slot probe (g := reclaimScanned slot g) hcalls hno
        · exact hkeep hno
      · -- taken over: closed without `EPOLL_CTL_DEL`, and registered anew
        have hclosed : ((gcClosePidfd slot g).pidfds slot).pidfd < 0 := by
          simp [gcClosePidfd, PidfdEntry.unregistered]
        rw [if_pos hsame]
        refine ⟨_, (gcRegisterPidfd_pidfds ..).trans (Function.update_idem ..), ?_⟩
        rw [gcRegisterPidfd_calls hclosed]
        simp only [gcClosePidfd, hcalls]
        exact .replace _ _ ⟨hpid, .inr hsame⟩ (not_lt.mp hneg)

theorem perform_change (a : GcAction) (g : GcState) :
    ∃ probe opens e, (a.perform g).pidfds = Function.update g.pidfds a.slot e ∧
      SlotChange a.slot probe (g.pidfds a.slot) opens e (a.perform g).calls := by
  cases a with
  | visit slot probe =>
      exact ⟨probe, _, gcScanSlot_change probe slot (g := { g with calls := [] }) rfl⟩
  | exit slot =>
      refine ⟨⟨-1, false, none⟩, False, ?_⟩
      show ∃ e, (gcHandleProcessExit slot { g with calls := [] }).pidfds = _ ∧
        SlotChange _ _ _ _ e (gcHandleProcessExit slot { g with calls := [] }).calls
      unfold gcHandleProcessExit
      split
      · exact gcDropPidfd_change slot _ (g := reclaimExited slot { g with calls := [] }) rfl id
      · exact gcDropPidfd_change slot _ (g := { g with calls := [] }) rfl id

/-! ## Entries and the table -/

/-- The entries of `gc_pidfd_table` that hold a descriptor hold different ones,
each open and a pidfd of the recorded process. -/
abbrev Held (pidfds : Slot → PidfdEntry) (t : FdTable) : Prop :=
  Holds PidfdEntry.pidfd (fun e => FdObject.process e.pid) pidfds t

/-- Registration keeps the entries right about the table. -/
theorem Held.register {pidfds : Slot → PidfdEntry} {t : FdTable} (h : Held pidfds t) (slot : Slot)
    (pid : Int) (start : UInt64) (probe : SlotProbe)
    (hanswer : Along Answer t (registerCalls slot pid probe)) :
    Along ClosesPidfd t (registerCalls slot pid probe) ∧
      Held (Function.update pidfds slot (registered pid start probe))
        (tableAfter t (registerCalls slot pid probe)) := by
  by_cases hopen : probe.pidfdOpen < 0
  · have hcalls : registerCalls slot pid probe = [.pidfdOpen pid probe.pidfdOpen] := if_pos hopen
    have htable : tableAfter t [.pidfdOpen pid probe.pidfdOpen] = t := if_pos hopen
    have hentry : registered pid start probe = .unregistered := if_pos (.inl hopen)
    rw [hcalls, htable, hentry]
    exact ⟨⟨trivial, trivial⟩, h.clear slot (by decide)⟩
  · have hfree : t probe.pidfdOpen = none := by
      unfold registerCalls at hanswer
      rw [if_neg hopen] at hanswer
      split at hanswer
      · exact (hanswer.1.2.resolve_left hopen).free
      · exact (hanswer.1.1.2.resolve_left hopen).free
    have htable : tableAfter t [.epollAdd probe.pidfdOpen slot, .pidfdOpen pid probe.pidfdOpen] =
        Function.update t probe.pidfdOpen (some (.process pid)) := if_neg hopen
    unfold registerCalls
    rw [if_neg hopen]
    cases hadd : probe.epollAdd with
    | true =>
        have hentry : registered pid start probe = ⟨probe.pidfdOpen, pid, start⟩ :=
          if_neg (by simp [hopen, hadd])
        rw [if_pos rfl, htable, hentry]
        exact ⟨⟨⟨trivial, trivial⟩, trivial⟩, h.take slot hfree⟩
    | false =>
        -- the pidfd is closed again, which leaves the table as it was
        have hentry : registered pid start probe = .unregistered := if_pos (.inr hadd)
        have hback : tableAfter t [.close probe.pidfdOpen, .epollAdd probe.pidfdOpen slot,
            .pidfdOpen pid probe.pidfdOpen] = t := by
          rw [tableAfter, htable]
          show Function.update (Function.update t _ _) _ none = t
          rw [Function.update_idem, ← hfree, Function.update_eq_self]
        rw [if_neg Bool.false_ne_true, hback, hentry]
        refine ⟨⟨⟨⟨trivial, trivial⟩, trivial⟩, ?_⟩, h.clear slot (by decide)⟩
        refine ⟨pid, ?_⟩
        rw [htable, Function.update_self]

/-- Every change keeps the entries right about the table. -/
theorem Held.change {pidfds : Slot → PidfdEntry} {t : FdTable} (h : Held pidfds t) {slot : Slot}
    {probe : SlotProbe} {opens : Prop} {e : PidfdEntry} {calls : List FdCall}
    (hchange : SlotChange slot probe (pidfds slot) opens e calls)
    (hanswer : Along Answer t calls) :
    Along ClosesPidfd t calls ∧ Held (Function.update pidfds slot e) (tableAfter t calls) := by
  cases hchange with
  | keep => exact ⟨trivial, (Function.update_eq_self slot pidfds).symm ▸ h⟩
  | clear => exact ⟨trivial, h.clear slot (by decide)⟩
  | drop _ hopen =>
      exact ⟨⟨⟨trivial, trivial⟩, _, h.opened slot hopen⟩, h.close slot (by decide)⟩
  | register pid start => exact h.register slot pid start probe hanswer
  | replace pid start _ hopen =>
      have hclosed : Held (Function.update pidfds slot .unregistered)
          (tableAfter t [.close (pidfds slot).pidfd]) := h.close slot (by decide)
      rw [along_append] at hanswer
      have hregister := hclosed.register slot pid start probe hanswer.2
      rw [Function.update_idem] at hregister
      rw [along_append, tableAfter_append]
      exact ⟨⟨⟨trivial, _, h.opened slot hopen⟩, hregister.1⟩, hregister.2⟩

/-! ## Runs of the thread -/

/-- The collector's state, its epoll descriptor, and the open descriptors. -/
structure GcThread where
  gc : GcState
  epollFd : Int
  fds : FdTable

/-- What happens next: the thread acts, somebody writes the segments, or another
thread of the process opens or closes a descriptor of its own. -/
inductive GcEvent where
  | act (a : GcAction)
  | segments (shm : SharedMemoryData) (tenant : TenantSharedMemory)
  | foreignOpen (fd : Int)
  | foreignClose (fd : Int)

def GcStep (s : GcThread) : GcEvent → GcThread → Prop
  | .act a, s' => Along Answer s.fds (a.perform s.gc).calls ∧
      s' = { s with gc := a.perform s.gc, fds := tableAfter s.fds (a.perform s.gc).calls }
  | .segments shm tenant, s' => s' = { s with gc := { s.gc with shm := shm, tenant := tenant } }
  | .foreignOpen fd, s' => LowestFree s.fds fd ∧
      s' = { s with fds := Function.update s.fds fd (some .foreign) }
  | .foreignClose fd, s' => s.fds fd = some .foreign ∧
      s' = { s with fds := Function.update s.fds fd none }

/-- `gc_thread_func` up to its first scan: `epoll_create1` fails, or the table
is filled.  `opened` are the descriptors that the process has open before. -/
def gcThreadInit (fill : PidfdEntry) (epollFd : Int) (opened : Int → Bool)
    (shm : SharedMemoryData) (tenant : TenantSharedMemory) : Option GcThread :=
  if epollFd < 0 then none
  else
    some
      { gc := ⟨shm, tenant, fun _ => fill, []⟩
        epollFd := epollFd
        fds := Function.update (fun fd => if opened fd then some .foreign else none) epollFd
          (some .epoll) }

/-- What `memset(gc_pidfd_table, 0, ...)` fills the table with. -/
def zeroedEntry : PidfdEntry := ⟨0, 0, 0⟩

/-- The scan that follows the start is the one the collector starts with. -/
theorem scan_gcThreadInit {epollFd : Int} {opened : Int → Bool} {shm : SharedMemoryData}
    {tenant : TenantSharedMemory} {s₀ : GcThread}
    (h : gcThreadInit zeroedEntry epollFd opened shm tenant = some s₀)
    (probes : Slot → SlotProbe) :
    gcScanAndRegister probes s₀.gc = gcThreadStart probes shm tenant := by
  unfold gcThreadInit at h
  split at h
  · cases h
  · obtain rfl := Option.some.inj h
    rfl

/-- The clean-up at the end closes the descriptors of the slots, in order. -/
def closeCalls (pidfds : Slot → PidfdEntry) (slots : List Slot) : List FdCall :=
  (slots.filterMap fun slot =>
    if 0 ≤ (pidfds slot).pidfd then some (.close (pidfds slot).pidfd) else none).reverse

/-- The end of `gc_thread_func`.  The entries keep their descriptors. -/
def gcThreadEnd (epollFd : Int) (pidfds : Slot → PidfdEntry) : List FdCall :=
  (if 0 ≤ epollFd then [.close epollFd] else []) ++
    closeCalls pidfds (List.finRange maxProcesses)

/-- The thread owns its descriptors at this moment: the table is right, and
whatever the thread does next, be it one action or a whole scan, or if it ends,
it closes only what is its own and open. -/
structure Owns (s : GcThread) : Prop where
  held : Held s.gc.pidfds s.fds
  closes : ∀ a : GcAction, Along Answer s.fds (a.perform s.gc).calls →
    Along (ClosesOwn s.epollFd) s.fds (a.perform s.gc).calls
  scans : ∀ probes calls, (gcScanAndRegister probes { s.gc with calls := [] }).calls = calls →
    Along Answer s.fds calls → Along (ClosesOwn s.epollFd) s.fds calls
  ends : Along (ClosesOwn s.epollFd) s.fds (gcThreadEnd s.epollFd s.gc.pidfds)

/-- It does so at every moment of every run. -/
def ThreadOwns (fill : PidfdEntry) (epollFd : Int) (opened : Int → Bool)
    (shm : SharedMemoryData) (tenant : TenantSharedMemory) : Prop :=
  ∀ s₀, gcThreadInit fill epollFd opened shm tenant = some s₀ →
    ∀ events s, Run GcStep s₀ events s → Owns s

/-- The invariant: the table is right and the epoll instance open. -/
structure Sound (s : GcThread) : Prop where
  held : Held s.gc.pidfds s.fds
  epoll : s.fds s.epollFd = some .epoll

/-- An action of a sound thread closes pidfds only, and keeps the thread
sound. -/
theorem Sound.act {s : GcThread} (h : Sound s) {a : GcAction}
    (hanswer : Along Answer s.fds (a.perform s.gc).calls) :
    Along ClosesPidfd s.fds (a.perform s.gc).calls ∧
      Held (a.perform s.gc).pidfds (tableAfter s.fds (a.perform s.gc).calls) ∧
      tableAfter s.fds (a.perform s.gc).calls s.epollFd = some .epoll := by
  obtain ⟨probe, opens, e, hpidfds, hchange⟩ := perform_change a s.gc
  obtain ⟨hcloses, hheld⟩ := h.held.change hchange hanswer
  rw [hpidfds]
  exact ⟨hcloses, hheld, tableAfter_kept hanswer hcloses h.epoll fun _ hsome => nomatch hsome⟩

theorem Sound.step {s s' : GcThread} {event : GcEvent} (h : Sound s)
    (hstep : GcStep s event s') : Sound s' := by
  cases event with
  | act a =>
      obtain ⟨hanswer, rfl⟩ := hstep
      obtain ⟨-, hheld, hepoll⟩ := h.act hanswer
      exact ⟨hheld, hepoll⟩
  | segments shm tenant =>
      obtain rfl := hstep
      exact ⟨h.held, h.epoll⟩
  | foreignOpen fd =>
      obtain ⟨hlowest, rfl⟩ := hstep
      have hne : s.epollFd ≠ fd := by
        intro heq
        have hfree := hlowest.free
        rw [← heq, h.epoll] at hfree
        cases hfree
      exact ⟨h.held.elsewhere (h.held.num_ne hlowest.free fun _ hsome => nomatch hsome) _,
        (Function.update_of_ne hne _ _).trans h.epoll⟩
  | foreignClose fd =>
      obtain ⟨hforeign, rfl⟩ := hstep
      have hne : s.epollFd ≠ fd := by
        intro heq
        rw [← heq, h.epoll] at hforeign
        cases hforeign
      exact ⟨h.held.elsewhere (h.held.num_ne hforeign fun _ hsome => nomatch hsome) _,
        (Function.update_of_ne hne _ _).trans h.epoll⟩

theorem Sound.run {s₀ s : GcThread} {events : List GcEvent} (h : Sound s₀)
    (hrun : Run GcStep s₀ events s) : Sound s :=
  hrun.invariant h fun _ _ _ hs hstep => hs.step hstep

/-! ## The scan as a run -/

/-- The same state with `earlier` calls made before. -/
def after (g : GcState) (earlier : List FdCall) : GcState :=
  { g with calls := g.calls ++ earlier }

@[simp] theorem after_shm (g : GcState) (earlier : List FdCall) :
    (after g earlier).shm = g.shm := rfl

@[simp] theorem after_pidfds (g : GcState) (earlier : List FdCall) :
    (after g earlier).pidfds = g.pidfds := rfl

@[simp] theorem after_slotUnchanged (slot : Slot) (g : GcState) (earlier : List FdCall) :
    SlotUnchanged slot (after g earlier) ↔ SlotUnchanged slot g := Iff.rfl

@[simp] theorem reclaimScanned_after (slot : Slot) (g : GcState) (earlier : List FdCall) :
    reclaimScanned slot (after g earlier) = after (reclaimScanned slot g) earlier := rfl

@[simp] theorem gcClosePidfd_after (slot : Slot) (g : GcState) (earlier : List FdCall) :
    gcClosePidfd slot (after g earlier) = after (gcClosePidfd slot g) earlier := rfl

@[simp] theorem gcDropPidfd_after (slot : Slot) (g : GcState) (earlier : List FdCall) :
    gcDropPidfd slot (after g earlier) = after (gcDropPidfd slot g) earlier := by
  unfold gcDropPidfd after
  dsimp only
  split
  · rfl
  · rfl

@[simp] theorem gcRegisterPidfd_after (slot : Slot) (pid : Int) (start : UInt64)
    (probe : SlotProbe) (g : GcState) (earlier : List FdCall) :
    gcRegisterPidfd slot pid start probe (after g earlier) =
      after (gcRegisterPidfd slot pid start probe g) earlier := by
  unfold gcRegisterPidfd
  dsimp only
  rw [gcDropPidfd_after]
  split
  · rfl
  · split
    · rfl
    · rfl

/-- Which calls were made before makes no difference to a visit. -/
theorem gcScanSlot_after (probe : SlotProbe) (slot : Slot) (g : GcState)
    (earlier : List FdCall) :
    gcScanSlot probe slot (after g earlier) = after (gcScanSlot probe slot g) earlier := by
  unfold gcScanSlot
  simp only [after_shm, after_pidfds, after_slotUnchanged, reclaimScanned_after,
    gcClosePidfd_after, gcDropPidfd_after, gcRegisterPidfd_after]
  split
  · split
    · rfl
    · rfl
  · split
    · split
      · rfl
      · rfl
    · split
      · rfl
      · split
        · rfl
        · rfl

/-- The visits of some slots; those of all slots are the scan. -/
def visited (probes : Slot → SlotProbe) (slots : List Slot) (g : GcState) : GcState :=
  slots.foldl (fun g slot => gcScanSlot (probes slot) slot g) g

/-- The last visit starts from the state of the others and adds its own calls. -/
theorem visited_snoc (probes : Slot → SlotProbe) (slots : List Slot) (slot : Slot) (g : GcState) :
    visited probes (slots ++ [slot]) g =
      after (gcScanSlot (probes slot) slot { visited probes slots g with calls := [] })
        (visited probes slots g).calls := by
  rw [← gcScanSlot_after, visited, List.foldl_append]
  rfl

/-- Visits that are answered are a run of the thread, and those of a sound thread
close pidfds only. -/
theorem run_visited (probes : Slot → SlotProbe) {s : GcThread} (hcalls : s.gc.calls = [])
    (slots : List Slot) :
    Along Answer s.fds (visited probes slots s.gc).calls →
      ∃ s', Run GcStep s (slots.map fun slot => .act (.visit slot (probes slot))) s' ∧
        visited probes slots s.gc = { s'.gc with calls := (visited probes slots s.gc).calls } ∧
        s'.epollFd = s.epollFd ∧
        s'.fds = tableAfter s.fds (visited probes slots s.gc).calls ∧
        (Sound s → Along ClosesPidfd s.fds (visited probes slots s.gc).calls) := by
  induction slots using List.reverseRecOn with
  | nil =>
      intro _
      refine ⟨s, .start, rfl, rfl, ?_⟩
      rw [visited, List.foldl_nil, hcalls]
      exact ⟨rfl, fun _ => trivial⟩
  | append_singleton slots slot ih =>
      intro hanswer
      rw [visited_snoc] at hanswer ⊢
      obtain ⟨hbefore, hvisit⟩ := along_append.mp hanswer
      obtain ⟨s', hrun, hgc, hepoll, hfds, hcloses⟩ := ih hbefore
      have hsame : { visited probes slots s.gc with calls := [] } = { s'.gc with calls := [] } := by
        rw [hgc]
      rw [hsame, ← hfds] at hvisit
      rw [hsame, List.map_append]
      refine ⟨_, .snoc hrun ⟨hvisit, rfl⟩, rfl, hepoll, ?_, fun hsound => ?_⟩
      · rw [hfds]
        exact (tableAfter_append _ _ _).symm
      · refine along_append.mpr ⟨hcloses hsound, ?_⟩
        rw [← hfds]
        exact ((hsound.run hrun).act (a := .visit slot (probes slot)) hvisit).1

/-! ## The end of the thread -/

theorem closeCalls_cons (pidfds : Slot → PidfdEntry) (slot : Slot) (slots : List Slot) :
    closeCalls pidfds (slot :: slots) = closeCalls pidfds slots ++
      if 0 ≤ (pidfds slot).pidfd then [.close (pidfds slot).pidfd] else [] := by
  unfold closeCalls
  rw [List.filterMap_cons]
  split
  · rename_i hnone
    rw [if_neg (by simpa using hnone), List.append_nil]
  · rename_i call hsome
    obtain ⟨hopen, hcall⟩ := Option.ite_none_right_eq_some.mp hsome
    rw [if_pos hopen, List.reverse_cons, Option.some.inj hcall]

theorem mem_closeCalls {pidfds : Slot → PidfdEntry} {slots : List Slot} {call : FdCall} :
    call ∈ closeCalls pidfds slots ↔
      ∃ slot ∈ slots, 0 ≤ (pidfds slot).pidfd ∧ .close (pidfds slot).pidfd = call := by
  unfold closeCalls
  rw [List.mem_reverse, List.mem_filterMap]
  simp only [Option.ite_none_right_eq_some, Option.some_inj]

/-- The slots are closed one after the other; as their descriptors differ, each
is still open when its turn comes. -/
theorem closesPidfd_closeCalls {pidfds : Slot → PidfdEntry}
    (hdistinct : ∀ i j, 0 ≤ (pidfds i).pidfd → (pidfds i).pidfd = (pidfds j).pidfd → i = j)
    {slots : List Slot} (hnodup : slots.Nodup) :
    ∀ t : FdTable, (∀ slot ∈ slots, 0 ≤ (pidfds slot).pidfd →
        t (pidfds slot).pidfd = some (.process (pidfds slot).pid)) →
      Along ClosesPidfd t (closeCalls pidfds slots) := by
  induction slots with
  | nil => exact fun _ _ => trivial
  | cons slot slots ih =>
      intro t hopen
      rw [List.nodup_cons] at hnodup
      rw [closeCalls_cons, along_append]
      by_cases hslot : 0 ≤ (pidfds slot).pidfd
      · rw [if_pos hslot]
        refine ⟨⟨trivial, _, hopen slot List.mem_cons_self hslot⟩, ih hnodup.2 _ ?_⟩
        intro other hother hnonneg
        have hne : (pidfds other).pidfd ≠ (pidfds slot).pidfd := fun heq =>
          hnodup.1 (hdistinct other slot hnonneg heq ▸ hother)
        exact (Function.update_of_ne hne _ _).trans
          (hopen other (List.mem_cons_of_mem slot hother) hnonneg)
      · rw [if_neg hslot]
        refine ⟨trivial, ih hnodup.2 t ?_⟩
        exact fun other hother => hopen other (List.mem_cons_of_mem slot hother)

theorem answer_closeCalls (pidfds : Slot → PidfdEntry) (slots : List Slot) (t : FdTable) :
    Along Answer t (closeCalls pidfds slots) := by
  refine along_of_forall (fun call hcall _ => ?_) t
  obtain ⟨_, _, _, rfl⟩ := mem_closeCalls.mp hcall
  trivial

/-- A sound thread ends by closing its own descriptors. -/
theorem Sound.ends {s : GcThread} (h : Sound s) :
    Along (ClosesOwn s.epollFd) s.fds (gcThreadEnd s.epollFd s.gc.pidfds) := by
  have hcloses := closesPidfd_closeCalls h.held.distinct (List.nodup_finRange maxProcesses) s.fds
    fun slot _ => h.held.opened slot
  have hepoll := tableAfter_kept (answer_closeCalls _ _ _) hcloses h.epoll
    fun _ hsome => nomatch hsome
  refine along_append.mpr ⟨hcloses.mono fun _ _ => ClosesPidfd.own s.epollFd, ?_⟩
  split
  · exact ⟨trivial, .inr ⟨rfl, hepoll⟩⟩
  · trivial

theorem Sound.owns {s : GcThread} (h : Sound s) : Owns s := by
  have hown : ∀ t call, ClosesPidfd t call → ClosesOwn s.epollFd t call :=
    fun _ _ => ClosesPidfd.own s.epollFd
  have hfresh : Sound { s with gc := { s.gc with calls := [] } } := ⟨h.held, h.epoll⟩
  refine ⟨h.held, ?_, ?_, h.ends⟩
  · intro a hanswer
    exact (h.act hanswer).1.mono hown
  · intro probes calls hcalls hanswer
    rw [← hcalls] at hanswer ⊢
    obtain ⟨_, _, _, _, _, hcloses⟩ := run_visited probes
      (s := { s with gc := { s.gc with calls := [] } }) rfl (List.finRange maxProcesses) hanswer
    exact (hcloses hfresh).mono hown

/-- What was closed by closing calls stays closed. -/
theorem tableAfter_closed {calls : List FdCall} (honly : ∀ call ∈ calls, ∃ fd, call = .close fd)
    (t : FdTable) {fd : Int} (hfd : .close fd ∈ calls) : tableAfter t calls fd = none := by
  induction calls with
  | nil => cases hfd
  | cons call calls ih =>
      obtain ⟨k, rfl⟩ := honly call List.mem_cons_self
      show Function.update (tableAfter t calls) k none fd = none
      by_cases heq : fd = k
      · rw [heq, Function.update_self]
      · rw [Function.update_of_ne heq]
        refine ih (fun c hc => honly c (List.mem_cons_of_mem _ hc)) ?_
        exact (List.mem_cons.mp hfd).resolve_left fun h => heq (FdCall.close.inj h)

/-- After the end the entries are right only if none holds a descriptor. -/
theorem held_end_iff (epollFd : Int) (pidfds : Slot → PidfdEntry) (t : FdTable) :
    Held pidfds (tableAfter t (gcThreadEnd epollFd pidfds)) ↔ ∀ slot, (pidfds slot).pidfd < 0 := by
  constructor
  · intro h slot
    by_contra hnot
    have hslot : 0 ≤ (pidfds slot).pidfd := by omega
    have hmem : .close (pidfds slot).pidfd ∈ gcThreadEnd epollFd pidfds :=
      List.mem_append_right _ (mem_closeCalls.mpr ⟨slot, List.mem_finRange slot, hslot, rfl⟩)
    have honly : ∀ call ∈ gcThreadEnd epollFd pidfds, ∃ fd, call = .close fd := by
      intro call hcall
      rcases List.mem_append.mp hcall with hcall | hcall
      · split at hcall
        · exact ⟨_, List.mem_singleton.mp hcall⟩
        · cases hcall
      · obtain ⟨other, _, _, hclose⟩ := mem_closeCalls.mp hcall
        exact ⟨_, hclose.symm⟩
    have hopen := h.opened slot hslot
    rw [tableAfter_closed honly t hmem] at hopen
    cases hopen
  · exact holds_of_neg

/-- **Ownership of descriptors.**  The thread owns its descriptors at every
moment of every run, up to and including the calls of the clean-up, if and only
if `epoll_create1` fails or the entries that the table is filled with hold no
descriptor.  After the clean-up the entries still have the descriptors that it
has closed, so the table is right then only if none was held. -/
theorem threadOwns_iff (fill : PidfdEntry) (epollFd : Int) (opened : Int → Bool)
    (shm : SharedMemoryData) (tenant : TenantSharedMemory) :
    (ThreadOwns fill epollFd opened shm tenant ↔ epollFd < 0 ∨ fill.pidfd < 0) ∧
    ∀ s : GcThread,
      Held s.gc.pidfds (tableAfter s.fds (gcThreadEnd s.epollFd s.gc.pidfds)) ↔
        ∀ slot, (s.gc.pidfds slot).pidfd < 0 := by
  refine ⟨⟨?_, ?_⟩, fun s => held_end_iff s.epollFd s.gc.pidfds s.fds⟩
  · intro h
    by_contra hnot
    rw [not_or] at hnot
    have howns := h _ (if_neg hnot.1) [] _ .start
    -- two slots hold the same descriptor
    have hsame := howns.held.distinct ⟨0, by rw [maxProcesses_eq]; decide⟩
      ⟨1, by rw [maxProcesses_eq]; decide⟩ (not_lt.mp hnot.2) rfl
    exact absurd (congrArg Fin.val hsame) (by decide)
  · intro h s₀ hinit events s hrun
    unfold gcThreadInit at hinit
    split at hinit
    · cases hinit
    · rename_i hepoll
      obtain rfl := Option.some.inj hinit
      refine (Sound.run ⟨?_, ?_⟩ hrun).owns
      · exact holds_of_neg fun _ => h.resolve_left hepoll
      · dsimp only
        rw [Function.update_self]

theorem threadOwns_unregistered :
    ThreadOwns .unregistered 3 (fun fd => 0 ≤ fd ∧ fd ≤ 2) SharedMemory.zeroed
        SharedMemoryTenant.zeroed ∧
      ThreadOwns zeroedEntry (-1) (fun fd => 0 ≤ fd ∧ fd ≤ 2) SharedMemory.zeroed
        SharedMemoryTenant.zeroed :=
  ⟨(threadOwns_iff .unregistered 3 _ _ _).1.mpr (.inr (by decide)),
    -- the source's own fill, where `epoll_create1` fails
    (threadOwns_iff zeroedEntry (-1) _ _ _).1.mpr (.inl (by decide))⟩

/-! ## The zeroed table -/

def firstSlot : Slot := ⟨0, by rw [maxProcesses_eq]; decide⟩

def secondSlot : Slot := ⟨1, by rw [maxProcesses_eq]; decide⟩

theorem secondSlot_ne : secondSlot ≠ firstSlot := fun h => absurd (congrArg Fin.val h) (by decide)

/-- Processes 100 and 200 in the first two slots. -/
def twoProcesses : SharedMemoryData :=
  { SharedMemory.zeroed with
    processPids :=
      Function.update (Function.update SharedMemory.zeroed.processPids firstSlot 100) secondSlot
        200 }

/-- The kernel opens descriptor 0, and the process is alive. -/
def openedZero : SlotProbe := ⟨0, true, some "State:\tS (sleeping)\n".toList⟩

/-- A visit of an occupied slot that the zeroed table takes for registered. -/
theorem visit_zeroed {slot : Slot} {g : GcState} (hentry : g.pidfds slot = zeroedEntry)
    (hpid : g.shm.processPids slot ≠ 0) :
    ((GcAction.visit slot openedZero).perform g).pidfds =
        Function.update g.pidfds slot
          ⟨0, g.shm.processPids slot, g.shm.processStartTimes slot⟩ ∧
      ((GcAction.visit slot openedZero).perform g).shm = g.shm ∧
      ((GcAction.visit slot openedZero).perform g).calls =
        [.epollAdd 0 slot, .pidfdOpen (g.shm.processPids slot) 0, .close 0] := by
  have hchanged : ¬SlotUnchanged slot { g with calls := [] } := by
    intro h
    have hsame : g.shm.processPids slot = (g.pidfds slot).pid := h.1
    rw [hentry] at hsame
    exact hpid hsame
  have hclosed : ((gcClosePidfd slot { g with calls := [] }).pidfds slot).pidfd < 0 := by
    simp [gcClosePidfd, PidfdEntry.unregistered]
  have hvisit : (GcAction.visit slot openedZero).perform g =
      gcRegisterPidfd slot (g.shm.processPids slot) (g.shm.processStartTimes slot) openedZero
        (gcClosePidfd slot { g with calls := [] }) := by
    show gcScanSlot openedZero slot { g with calls := [] } = _
    unfold gcScanSlot
    rw [if_neg hpid, if_neg (by simp [hentry, zeroedEntry]), if_pos hchanged]
  rw [hvisit]
  refine ⟨?_, rfl, ?_⟩
  · rw [gcRegisterPidfd_pidfds]
    exact Function.update_idem ..
  · rw [gcRegisterPidfd_calls hclosed]
    simp [registerCalls, openedZero, gcClosePidfd, hentry, zeroedEntry]

/-- Descriptor 0 has been closed and opened again. -/
theorem answer_reopened (t : FdTable) (slot : Slot) (pid : Int) :
    Along Answer t [.epollAdd 0 slot, .pidfdOpen pid 0, .close 0] := by
  refine ⟨⟨⟨trivial, trivial⟩, .inr ⟨le_refl 0, ?_, ?_⟩⟩, trivial⟩
  · exact Function.update_self (0 : Int) none t
  · intro k hk hlt
    omega

/-- Such a visit closes descriptor 0, whatever it is, and takes it over. -/
theorem step_zeroed {s : GcThread} {slot : Slot} (hentry : s.gc.pidfds slot = zeroedEntry)
    (hpid : s.gc.shm.processPids slot ≠ 0) :
    ∃ s', GcStep s (.act (.visit slot openedZero)) s' ∧ s'.gc.shm = s.gc.shm ∧
      s'.gc.pidfds = Function.update s.gc.pidfds slot
        ⟨0, s.gc.shm.processPids slot, s.gc.shm.processStartTimes slot⟩ ∧
      s'.fds 0 = some (.process (s.gc.shm.processPids slot)) := by
  obtain ⟨hpidfds, hshm, hcalls⟩ := visit_zeroed hentry hpid
  have hanswer : Along Answer s.fds
      ((GcAction.visit slot openedZero).perform s.gc).calls := by
    rw [hcalls]
    exact answer_reopened ..
  refine ⟨_, ⟨hanswer, rfl⟩, hshm, hpidfds, ?_⟩
  dsimp only
  rw [hcalls]
  simp [tableAfter, effect]

/-- The thread as it starts on `twoProcesses`, with the three standard
descriptors open. -/
def zeroedThread : GcThread where
  gc := ⟨twoProcesses, SharedMemoryTenant.zeroed, fun _ => zeroedEntry, []⟩
  epollFd := 3
  fds := Function.update (fun fd => if 0 ≤ fd ∧ fd ≤ 2 then some .foreign else none) 3 (some .epoll)

theorem zeroedThread_init :
    gcThreadInit zeroedEntry 3 (fun fd => 0 ≤ fd ∧ fd ≤ 2) twoProcesses
      SharedMemoryTenant.zeroed = some zeroedThread := by
  unfold gcThreadInit zeroedThread
  simp only [decide_eq_true_eq]
  rfl

theorem twoProcesses_first : twoProcesses.processPids firstSlot = 100 := by
  simp [twoProcesses, secondSlot_ne.symm]

theorem twoProcesses_second : twoProcesses.processPids secondSlot = 200 := by
  simp [twoProcesses]

/-- The first scan closes standard input, which is not the thread's.  The pidfd
of process 100 takes its number, the next slot closes that one as well, and both
slots then hold descriptor 0, which refers to process 200. -/
theorem zeroed_table_closes_stdin :
    ¬ThreadOwns zeroedEntry 3 (fun fd => 0 ≤ fd ∧ fd ≤ 2) twoProcesses
        SharedMemoryTenant.zeroed ∧
      zeroedThread.fds 0 = some .foreign ∧
      ((GcAction.visit firstSlot openedZero).perform zeroedThread.gc).calls =
        [.epollAdd 0 firstSlot, .pidfdOpen 100 0, .close 0] ∧
      ∃ s, Run GcStep zeroedThread
          [.act (.visit firstSlot openedZero), .act (.visit secondSlot openedZero)] s ∧
        s.gc.pidfds firstSlot = ⟨0, 100, 0⟩ ∧ s.gc.pidfds secondSlot = ⟨0, 200, 0⟩ ∧
        s.fds 0 = some (.process 200) := by
  have hpid : zeroedThread.gc.shm.processPids firstSlot ≠ 0 := by
    show twoProcesses.processPids firstSlot ≠ 0
    rw [twoProcesses_first]
    decide
  refine ⟨?_, rfl, ?_, ?_⟩
  · intro h
    have hheld := (h _ zeroedThread_init [] _ .start).held
    exact secondSlot_ne (hheld.distinct secondSlot firstSlot (le_refl 0) rfl)
  · rw [(visit_zeroed rfl hpid).2.2, ← twoProcesses_first]
    rfl
  · obtain ⟨s₁, hstep₁, hshm₁, hpidfds₁, -⟩ := step_zeroed (s := zeroedThread) rfl hpid
    have hshm : s₁.gc.shm = twoProcesses := hshm₁
    have hentry : s₁.gc.pidfds secondSlot = zeroedEntry := by
      rw [hpidfds₁, Function.update_of_ne secondSlot_ne]
      rfl
    obtain ⟨s₂, hstep₂, -, hpidfds₂, hfds₂⟩ := step_zeroed hentry
      (by rw [hshm, twoProcesses_second]; decide)
    rw [hshm, twoProcesses_second] at hfds₂
    refine ⟨s₂, .snoc (.snoc .start hstep₁) hstep₂, ?_, ?_, hfds₂⟩
    · rw [hpidfds₂, Function.update_of_ne secondSlot_ne.symm, hpidfds₁, Function.update_self,
        ← twoProcesses_first]
      rfl
    · rw [hpidfds₂, Function.update_self, hshm, twoProcesses_second]
      rfl

end MtRdma.Ports.GcDescriptors
