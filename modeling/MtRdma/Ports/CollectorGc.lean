import MtRdma.Verified.SlotScan
import MtRdma.Verified.Runs
import MtRdma.Ports.SharedMemory
import MtRdma.Ports.SharedMemoryTenant

/-!
# The garbage collector (`collector_server_shm.c`)

One thread of the collector watches the processes of the process table through
pidfds.  An exit event reclaims the slot the pidfd was registered for; a
periodic scan registers new entries and reclaims, through `/proc`, what the
events missed.

The answers of the kernel are arguments: one `SlotProbe` per visited slot.
The calls on file descriptors are recorded in the order they are made.
-/

namespace MtRdma.Ports.CollectorGc

open Verified.SlotScan
open Verified.Runs
open Verified.CText
open SharedMemory
open SharedMemoryTenant (TenantSharedMemory TenantResourceUsage
  tenantGetProcessTenant tenantGetResourceUsage tenantUpdateResourceUsage)

/-! ## State -/

/-- An entry of `gc_pidfd_table`. -/
structure PidfdEntry where
  pidfd : Int
  pid : Int
  startTime : UInt64
  deriving Repr, DecidableEq

/-- The entry written wherever a slot is not, or no longer, registered. -/
def PidfdEntry.unregistered : PidfdEntry := ⟨-1, 0, 0⟩

/-- The calls on file descriptors, with the descriptor they act on. -/
inductive FdCall where
  | epollDel (fd : Int)
  | epollAdd (fd : Int) (slot : Slot)
  | close (fd : Int)
  | pidfdOpen (pid : Int) (fd : Int)
  deriving Repr, DecidableEq

/-- Both segments and the collector's own table.  `calls` lists the
descriptor calls made so far, the latest first. -/
structure GcState where
  shm : SharedMemoryData
  tenant : TenantSharedMemory
  pidfds : Slot → PidfdEntry
  calls : List FdCall

/-- What the kernel answers while one slot is visited: the descriptor of
`pidfd_open`, whether `EPOLL_CTL_ADD` succeeds, and the content of
`/proc/<pid>/status` (`none` if it cannot be opened). -/
structure SlotProbe where
  pidfdOpen : Int
  epollAdd : Bool
  status : Option (List Char)

/-! ## Registration -/

/-- Forget the registration of a slot, closing its descriptor if it has one. -/
def gcDropPidfd (slot : Slot) (g : GcState) : GcState :=
  { g with
    pidfds := Function.update g.pidfds slot .unregistered
    calls :=
      if 0 ≤ (g.pidfds slot).pidfd then
        .close (g.pidfds slot).pidfd :: .epollDel (g.pidfds slot).pidfd :: g.calls
      else g.calls }

/-- `gc_register_pidfd`. -/
def gcRegisterPidfd (slot : Slot) (pid : Int) (startTime : UInt64) (probe : SlotProbe)
    (g : GcState) : GcState :=
  let dropped := gcDropPidfd slot g
  let opened := { dropped with calls := .pidfdOpen pid probe.pidfdOpen :: dropped.calls }
  if probe.pidfdOpen < 0 then opened
  else
    let added := { opened with calls := .epollAdd probe.pidfdOpen slot :: opened.calls }
    if probe.epollAdd then
      { added with
        pidfds := Function.update added.pidfds slot ⟨probe.pidfdOpen, pid, startTime⟩ }
    else { added with calls := .close probe.pidfdOpen :: added.calls }

/-! ## The health check -/

/-- The loop over the rest of the `State:` line: the first letter it knows
decides, and an unknown one is passed over. -/
def stateLetterAlive : List Char → Bool
  | [] => false
  | c :: rest =>
      if c = 'Z' ∨ c = 'X' then false
      else if c = 'S' ∨ c = 'R' ∨ c = 'D' ∨ c = 'T' then true
      else stateLetterAlive rest

/-- `gc_is_process_really_alive` on the content of `/proc/<pid>/status`. -/
def gcIsProcessReallyAlive (status : Option (List Char)) : Bool :=
  match status with
  | none => false
  | some content =>
      match (fgetsAll 256 content).find? fun buf => "State:".toList.isPrefixOf buf with
      | none => false
      | some buf => stateLetterAlive (buf.drop 6)

/-! ## Exit events -/

/-- The counts of a tenant less those of a dead process, held at zero. -/
def reclaimedUsage (tu : TenantResourceUsage) (dead : ResourceUsage) :
    TenantResourceUsage :=
  { tu with
    qpCount := if dead.qpCount < tu.qpCount then tu.qpCount - dead.qpCount else 0
    mrCount := if dead.mrCount < tu.mrCount then tu.mrCount - dead.mrCount else 0
    memoryUsed :=
      if dead.memoryUsed < tu.memoryUsed then tu.memoryUsed - dead.memoryUsed else 0 }

/-- The tenant's side of a reclamation.  It is skipped for a process without
QPs. -/
def gcAdjustTenant (pid : Int) (dead : ResourceUsage) (s : TenantSharedMemory) :
    TenantSharedMemory :=
  if 0 < pid ∧ 0 < dead.qpCount then
    match tenantGetProcessTenant pid s with
    | none => s
    | some tenantId =>
        if 0 < tenantId then
          match tenantGetResourceUsage tenantId s with
          | none => s
          | some tu => (tenantUpdateResourceUsage tenantId (reclaimedUsage tu dead) s).2
        else s
  else s

/-- The entry of a slot is the one its pidfd was registered for. -/
def SlotUnchanged (slot : Slot) (g : GcState) : Prop :=
  g.shm.processPids slot = (g.pidfds slot).pid ∧
    g.shm.processStartTimes slot = (g.pidfds slot).startTime

instance (slot : Slot) (g : GcState) : Decidable (SlotUnchanged slot g) :=
  inferInstanceAs (Decidable (_ ∧ _))

/-- The reclamation proper: the entry goes, and the tenant gives back what the
entry recorded. -/
def reclaimExited (slot : Slot) (g : GcState) : GcState :=
  { g with
    shm := clearSlot slot g.shm
    tenant := gcAdjustTenant (g.shm.processPids slot) (g.shm.processStats slot) g.tenant }

/-- `gc_handle_process_exit`.  Whether or not the entry is reclaimed, the
registration is dropped. -/
def gcHandleProcessExit (slot : Slot) (g : GcState) : GcState :=
  if SlotUnchanged slot g ∧ g.shm.processPids slot ≠ 0 then
    gcDropPidfd slot (reclaimExited slot g)
  else gcDropPidfd slot g

/-! ## The periodic scan -/

/-- A slot is emptied by the scan.  Unlike `reclaimExited` this leaves the
tenant record alone. -/
def reclaimScanned (slot : Slot) (g : GcState) : GcState :=
  { g with shm := clearSlot slot g.shm }

/-- Close the descriptor of a slot that was taken over, without removing it
from the epoll set first. -/
def gcClosePidfd (slot : Slot) (g : GcState) : GcState :=
  { g with
    pidfds := Function.update g.pidfds slot .unregistered
    calls := .close (g.pidfds slot).pidfd :: g.calls }

/-- The body of the loop of `gc_scan_and_register`, in the order of its
cases. -/
def gcScanSlot (probe : SlotProbe) (slot : Slot) (g : GcState) : GcState :=
  if g.shm.processPids slot = 0 then
    if 0 ≤ (g.pidfds slot).pidfd then gcDropPidfd slot g else g
  else if (g.pidfds slot).pidfd < 0 then
    let g' := gcRegisterPidfd slot (g.shm.processPids slot) (g.shm.processStartTimes slot) probe g
    if (g'.pidfds slot).pidfd < 0 ∧ ¬gcIsProcessReallyAlive probe.status then
      reclaimScanned slot g'
    else g'
  else if ¬SlotUnchanged slot g then
    gcRegisterPidfd slot (g.shm.processPids slot) (g.shm.processStartTimes slot) probe
      (gcClosePidfd slot g)
  else if ¬gcIsProcessReallyAlive probe.status then
    gcDropPidfd slot (reclaimScanned slot g)
  else g

/-- `gc_scan_and_register`. -/
def gcScanAndRegister (probes : Slot → SlotProbe) (g : GcState) : GcState :=
  (List.finRange maxProcesses).foldl (fun g slot => gcScanSlot (probes slot) slot g) g

/-- The start of `gc_thread_func`: the table is zeroed, which leaves descriptor
0 in every entry, and scanned once. -/
def gcThreadStart (probes : Slot → SlotProbe) (shm : SharedMemoryData)
    (tenant : TenantSharedMemory) : GcState :=
  gcScanAndRegister probes ⟨shm, tenant, fun _ => ⟨0, 0, 0⟩, []⟩

/-! ## Frames -/

@[simp] theorem gcDropPidfd_shm (slot : Slot) (g : GcState) :
    (gcDropPidfd slot g).shm = g.shm := rfl

@[simp] theorem gcRegisterPidfd_shm (slot : Slot) (pid : Int) (startTime : UInt64)
    (probe : SlotProbe) (g : GcState) :
    (gcRegisterPidfd slot pid startTime probe g).shm = g.shm := by
  unfold gcRegisterPidfd
  split
  · rfl
  · simp only
    split <;> rfl

@[simp] theorem gcRegisterPidfd_tenant (slot : Slot) (pid : Int) (startTime : UInt64)
    (probe : SlotProbe) (g : GcState) :
    (gcRegisterPidfd slot pid startTime probe g).tenant = g.tenant := by
  unfold gcRegisterPidfd
  split
  · rfl
  · simp only
    split <;> rfl

/-- What visiting a slot does to the segments: nothing, or the entry of a
process that failed the health check is emptied. -/
theorem gcScanSlot_cases (probe : SlotProbe) (slot : Slot) (g : GcState) :
    (gcScanSlot probe slot g).tenant = g.tenant ∧
      ((gcScanSlot probe slot g).shm = g.shm ∨
        (g.shm.processPids slot ≠ 0 ∧ gcIsProcessReallyAlive probe.status = false ∧
          (gcScanSlot probe slot g).shm = clearSlot slot g.shm)) := by
  unfold gcScanSlot
  by_cases hpid : g.shm.processPids slot = 0
  · rw [if_pos hpid]
    split
    · exact ⟨rfl, .inl rfl⟩
    · exact ⟨rfl, .inl rfl⟩
  · rw [if_neg hpid]
    split
    · simp only
      split
      · rename_i _ hdead
        have hstate : gcIsProcessReallyAlive probe.status = false := by simpa using hdead.2
        refine ⟨by simp [reclaimScanned], .inr ⟨hpid, hstate, by simp [reclaimScanned]⟩⟩
      · exact ⟨by simp, .inl (by simp)⟩
    · split
      · exact ⟨by simp [gcClosePidfd], .inl (by simp [gcClosePidfd])⟩
      · split
        · rename_i hdead
          have hstate : gcIsProcessReallyAlive probe.status = false := by simpa using hdead
          exact ⟨rfl, .inr ⟨hpid, hstate, rfl⟩⟩
        · exact ⟨rfl, .inl rfl⟩

/-- What an exit event does to the segments: nothing, or the registered entry
is emptied and its tenant adjusted. -/
theorem gcHandleProcessExit_cases (slot : Slot) (g : GcState) :
    (¬(SlotUnchanged slot g ∧ g.shm.processPids slot ≠ 0) ∧
        (gcHandleProcessExit slot g).shm = g.shm ∧
        (gcHandleProcessExit slot g).tenant = g.tenant) ∨
      (SlotUnchanged slot g ∧ g.shm.processPids slot ≠ 0 ∧
        (gcHandleProcessExit slot g).shm = clearSlot slot g.shm ∧
        (gcHandleProcessExit slot g).tenant =
          gcAdjustTenant (g.shm.processPids slot) (g.shm.processStats slot) g.tenant) := by
  unfold gcHandleProcessExit
  by_cases hcond : SlotUnchanged slot g ∧ g.shm.processPids slot ≠ 0
  · rw [if_pos hcond]
    exact .inr ⟨hcond.1, hcond.2, rfl, rfl⟩
  · rw [if_neg hcond]
    exact .inl ⟨hcond, rfl, rfl⟩

/-- The tenant's side of a reclamation is one write of a usage record, or
nothing. -/
theorem gcAdjustTenant_cases (pid : Int) (dead : ResourceUsage) (s : TenantSharedMemory) :
    gcAdjustTenant pid dead s = s ∨ ∃ tenantId usage,
      gcAdjustTenant pid dead s = (tenantUpdateResourceUsage tenantId usage s).2 := by
  unfold gcAdjustTenant
  split
  · split
    · exact .inl rfl
    · split
      · split
        · exact .inl rfl
        · exact .inr ⟨_, _, rfl⟩
      · exact .inl rfl
  · exact .inl rfl

/-! ## The scan, slot by slot -/

/-- All that is kept about one slot. -/
structure SlotView where
  pid : Int
  start : UInt64
  stats : ResourceUsage
  entry : PidfdEntry

def slotView (slot : Slot) (g : GcState) : SlotView :=
  ⟨g.shm.processPids slot, g.shm.processStartTimes slot, g.shm.processStats slot,
    g.pidfds slot⟩

@[simp] theorem slotView_pid (slot : Slot) (g : GcState) :
    (slotView slot g).pid = g.shm.processPids slot := rfl

@[simp] theorem slotView_start (slot : Slot) (g : GcState) :
    (slotView slot g).start = g.shm.processStartTimes slot := rfl

@[simp] theorem slotView_entry (slot : Slot) (g : GcState) :
    (slotView slot g).entry = g.pidfds slot := rfl

/-- The entry that registering `pid` leaves behind. -/
def registered (pid : Int) (start : UInt64) (probe : SlotProbe) : PidfdEntry :=
  if probe.pidfdOpen < 0 ∨ probe.epollAdd = false then .unregistered
  else ⟨probe.pidfdOpen, pid, start⟩

/-- One iteration of the scan, seen from its own slot. -/
def SlotView.scan (probe : SlotProbe) (v : SlotView) : SlotView :=
  if v.pid = 0 then
    if 0 ≤ v.entry.pidfd then { v with entry := .unregistered } else v
  else if v.entry.pidfd < 0 then
    if (registered v.pid v.start probe).pidfd < 0 ∧ ¬gcIsProcessReallyAlive probe.status then
      ⟨0, 0, .zero, registered v.pid v.start probe⟩
    else { v with entry := registered v.pid v.start probe }
  else if ¬(v.pid = v.entry.pid ∧ v.start = v.entry.startTime) then
    { v with entry := registered v.pid v.start probe }
  else if ¬gcIsProcessReallyAlive probe.status then ⟨0, 0, .zero, .unregistered⟩
  else v

theorem gcRegisterPidfd_pidfds (slot : Slot) (pid : Int) (start : UInt64) (probe : SlotProbe)
    (g : GcState) : (gcRegisterPidfd slot pid start probe g).pidfds =
      Function.update g.pidfds slot (registered pid start probe) := by
  unfold gcRegisterPidfd registered gcDropPidfd
  by_cases hopen : probe.pidfdOpen < 0
  · simp [hopen]
  · cases hadd : probe.epollAdd with
    | false | true => simp [hopen]

theorem gcScanSlot_frame (probe : SlotProbe) {slot i : Slot} (hne : slot ≠ i) (g : GcState) :
    slotView i (gcScanSlot probe slot g) = slotView i g := by
  have hi : i ≠ slot := hne.symm
  unfold gcScanSlot slotView
  split
  · split
    · simp [gcDropPidfd, hi]
    · rfl
  · split
    · simp only
      split
      · simp [reclaimScanned, clearSlot, gcRegisterPidfd_pidfds, hi]
      · simp [gcRegisterPidfd_pidfds, hi]
    · split
      · simp [gcClosePidfd, gcRegisterPidfd_pidfds, hi]
      · split
        · simp [gcDropPidfd, reclaimScanned, clearSlot, hi]
        · rfl

theorem gcScanSlot_slot (probe : SlotProbe) (slot : Slot) (g : GcState) :
    slotView slot (gcScanSlot probe slot g) = (slotView slot g).scan probe := by
  unfold gcScanSlot SlotView.scan SlotUnchanged slotView
  simp only [gcRegisterPidfd_pidfds, Function.update_self]
  split
  · split
    · simp [gcDropPidfd]
    · rfl
  · split
    · split
      · simp [reclaimScanned, clearSlot, gcRegisterPidfd_pidfds]
      · simp [gcRegisterPidfd_pidfds]
    · split
      · simp [gcClosePidfd, gcRegisterPidfd_pidfds]
      · split
        · simp [gcDropPidfd, reclaimScanned, clearSlot]
        · rfl

/-- **The scan acts on every slot independently.** -/
theorem gcScanAndRegister_slot (probes : Slot → SlotProbe) (slot : Slot) (g : GcState) :
    slotView slot (gcScanAndRegister probes g) = (slotView slot g).scan (probes slot) :=
  foldl_finRange_view (g := SlotView.scan (probes slot))
    (fun s _ hne => gcScanSlot_frame _ hne s) (fun s => gcScanSlot_slot _ slot s) g

/-- The collector writes the process table through `clearSlot` only. -/
theorem gcHandleProcessExit_invariant {P : SharedMemoryData → Prop}
    (hclear : ∀ s slot, P s → P (clearSlot slot s)) (slot : Slot) {g : GcState} (h : P g.shm) :
    P (gcHandleProcessExit slot g).shm := by
  rcases gcHandleProcessExit_cases slot g with ⟨_, hshm, _⟩ | ⟨_, _, hshm, _⟩
  · rw [hshm]
    exact h
  · rw [hshm]
    exact hclear g.shm slot h

theorem gcScanAndRegister_invariant {P : SharedMemoryData → Prop}
    (hclear : ∀ s slot, P s → P (clearSlot slot s)) (probes : Slot → SlotProbe) {g : GcState}
    (h : P g.shm) : P (gcScanAndRegister probes g).shm := by
  -- one iteration of the scan empties its slot or leaves the table alone
  have hslot : ∀ (g : GcState) (slot : Slot), P g.shm →
      P (gcScanSlot (probes slot) slot g).shm := by
    intro g slot hg
    rcases (gcScanSlot_cases (probes slot) slot g).2 with hshm | ⟨_, _, hshm⟩
    · rw [hshm]
      exact hg
    · rw [hshm]
      exact hclear g.shm slot hg
  exact foldl_invariant (P := fun g : GcState => P g.shm) h hslot _

/-- The scan never writes the tenant store. -/
theorem gcScanAndRegister_tenant (probes : Slot → SlotProbe) (g : GcState) :
    (gcScanAndRegister probes g).tenant = g.tenant := by
  refine foldl_invariant (P := fun x : GcState => x.tenant = g.tenant) rfl ?_ _
  intro x slot hx
  rw [(gcScanSlot_cases (probes slot) slot x).1, hx]

/-- A scan that finds every process alive leaves the process table as it is. -/
theorem gcScanAndRegister_shm_of_alive {probes : Slot → SlotProbe}
    (halive : ∀ slot, gcIsProcessReallyAlive (probes slot).status = true) (g : GcState) :
    (gcScanAndRegister probes g).shm = g.shm := by
  refine foldl_invariant (P := fun x : GcState => x.shm = g.shm) rfl ?_ _
  intro x slot hx
  rcases (gcScanSlot_cases (probes slot) slot x).2 with hshm | ⟨_, hdead, _⟩
  · rw [hshm, hx]
  · rw [halive slot] at hdead
    cases hdead

/-- An occupied slot without a descriptor gets one when the kernel grants
it. -/
theorem gcScanAndRegister_registers (probes : Slot → SlotProbe) {slot : Slot} {g : GcState}
    (hocc : g.shm.processPids slot ≠ 0) (hunreg : (g.pidfds slot).pidfd < 0)
    (hopen : 0 ≤ (probes slot).pidfdOpen) (hadd : (probes slot).epollAdd = true) :
    (gcScanAndRegister probes g).pidfds slot =
      ⟨(probes slot).pidfdOpen, g.shm.processPids slot, g.shm.processStartTimes slot⟩ := by
  have hview := congrArg SlotView.entry (gcScanAndRegister_slot probes slot g)
  have hnot : ¬(probes slot).pidfdOpen < 0 := by omega
  have hreg : registered (g.shm.processPids slot) (g.shm.processStartTimes slot) (probes slot) =
      ⟨(probes slot).pidfdOpen, g.shm.processPids slot, g.shm.processStartTimes slot⟩ := by
    simp [registered, hnot, hadd]
  rw [slotView_entry] at hview
  rw [hview]
  simp [SlotView.scan, hocc, hunreg, hreg, hnot]

end MtRdma.Ports.CollectorGc
