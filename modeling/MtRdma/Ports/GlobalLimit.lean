import Mathlib.Algebra.BigOperators.Pi
import MtRdma.Ports.ProcessLimit

/-!
# The global limit and creations at the same time

The global limit is checked against the totals of the process table, read
without a lock, and a QP enters the totals when its creation is published.
Between the check of one process and its publication, every other process
finds the same total.

Here each process is an agent with its own counters and objects, and the
segments are shared.  In the interleavings in which no check of the global
limit is made while another creation is between its own check and its
publication, the limit holds.  Two processes that check one after the other
exceed it.
-/

namespace MtRdma.Ports.GlobalLimit

open Verified.MachineInt
open Verified.Runs
open Verified.Interleaving
open SharedMemory
open RdmaHooks
open HookPieces
open HookCounters
open QpPublication
open ProcessLimit

/-! ## Processes and segments -/

/-- What is private to a process. -/
structure Private where
  pc : Pc
  proc : Process
  live : Finset Object
  returned : Finset Object

/-- What the processes share. -/
structure Segments where
  shm : SharedMemoryData
  tenant : SharedMemoryTenant.TenantSharedMemory

/-- The state that the hooks of a process work on. -/
def join (p : Private) (g : Segments) : Shared :=
  ⟨⟨p.proc, g.shm, g.tenant⟩, p.live, p.returned⟩

/-- One piece of a hook of a process. -/
def processPiece (x : Private × Segments) (a : Action) : Option (Private × Segments) :=
  (pieceStep (x.1.pc, join x.1 x.2) a).map fun y =>
    (⟨y.1, y.2.view.proc, y.2.live, y.2.returned⟩, ⟨y.2.view.shm, y.2.view.tenant⟩)

/-- A piece of a process is a piece of its hook. -/
theorem moved_of_processPiece {p p' : Private} {g g' : Segments} {a : Action}
    (h : processPiece (p, g) a = some (p', g')) :
    Moved p.pc (join p g) a p'.pc (join p' g') := by
  obtain ⟨y, hstep, heq⟩ := Option.map_eq_some_iff.mp h
  obtain ⟨rfl, rfl⟩ := Prod.mk.inj heq
  exact moved_of_step hstep

/-! ## What the processes hold -/

/-- The QPs that a process has been given, and the creation it has between its
check of the global limit and its publication. -/
inductive Share where
  | returned
  | inFlight

def shareOf (k : Pc) (returned : Finset Object) : Share → Nat
  | .returned => qps returned
  | .inFlight => inFlight k.stage

/-- No QP is destroyed, no other creation is on its way when the global limit
is checked, and a publication finds an entry or a free slot. -/
def Solitary (rest : Share → Nat) (s : Shared) : Action → Prop
  | .destroyQp _ => False
  | .checkGlobal => rest .inFlight = 0
  | .publish _ => HasRoom s.view.shm s.view.proc.pid
  | _ => True

/-- A process with its pid that controls its QPs under the global limit. -/
structure Governed (pid : Int) (limit : UInt32) (p : Process) : Prop where
  pid_eq : p.pid = pid
  pid_pos : 0 < pid
  shmMapped : p.shmMapped = true
  control : p.intercept.config.enableQpControl = true
  maxGlobal : p.intercept.config.maxGlobalQp = limit

theorem Governed.of_setup {pid : Int} {limit : UInt32} {p q : Process}
    (h : Governed pid limit p) (hsame : SameSetup p q) : Governed pid limit q where
  pid_eq := hsame.pid.trans h.pid_eq
  pid_pos := h.pid_pos
  shmMapped := hsame.shmMapped.trans h.shmMapped
  control := by
    rw [hsame.config]
    exact h.control
  maxGlobal := by
    rw [hsame.config]
    exact h.maxGlobal

/-- What holds of one process: its entry records the QPs it has been given,
and what it is about to publish is one more. -/
structure Recorded (pid : Int) (limit : UInt32) (k : Pc) (s : Shared) : Prop where
  governed : Governed pid limit s.view.proc
  balanced : Balanced .qp s (holds k)
  entry : entryQp s.view.shm pid = Int32.ofInt (qps s.returned)
  snapshot : ∀ qp usage, k = .publishing qp usage →
    usage.qpCount = Int32.ofInt ((qps s.returned : Int) + 1)

/-- What holds of all together: the total is that of the returned QPs, and
with the one creation on its way they stay within the limit. -/
structure Capped (limit : UInt32) (shm : SharedMemoryData) (held : Share → Nat) : Prop where
  wf : TableWf shm
  total : shm.globalStats.qpCount = Int32.ofInt (held .returned)
  within : held .returned + held .inFlight ≤ limit.toNat
  alone : held .inFlight ≤ 1

section Invariant

variable {pid : Int} {limit : UInt32} {k k' : Pc} {s s' : Shared} {a : Action}
  {rest : Share → Nat}

/-- A check that passes with no other creation on its way leaves room for one
more QP. -/
theorem Capped.check (hrec : Recorded pid limit .checking s)
    (h : Capped limit s.view.shm (rest + shareOf .checking s.returned))
    (hrest : rest .inFlight = 0) (hpass : globalCheck s.view = true) :
    Capped limit s.view.shm (rest + shareOf .permitted s.returned) := by
  have hlt : s.view.shm.globalStats.qpCount.toUInt32 < limit := by
    rw [globalCheck_eq hrec.governed.control hrec.governed.shmMapped,
      decide_eq_true_eq] at hpass
    exact hrec.governed.maxGlobal ▸ hpass
  have hwithin : rest .returned + qps s.returned + (rest .inFlight + 0) ≤ limit.toNat := h.within
  have htotal : s.view.shm.globalStats.qpCount =
      Int32.ofInt ((rest .returned + qps s.returned : Nat) : Int) := h.total
  have hlimit := UInt32.toNat_lt limit
  have hroom : rest .returned + qps s.returned < limit.toNat := by
    rw [htotal, UInt32.lt_iff_toNat_lt, toNat_toUInt32_ofInt (by omega)] at hlt
    exact hlt
  refine ⟨h.wf, h.total, ?_, ?_⟩
  · show rest .returned + qps s.returned + (rest .inFlight + 1) ≤ limit.toNat
    omega
  · show rest .inFlight + 1 ≤ 1
    omega

/-- The publication of a process moves its QP into its entry and the total. -/
theorem Recorded.publish {env : HookEnv} {qp : Nat} {usage : ResourceUsage}
    (hrec : Recorded pid limit (.publishing qp usage) s)
    (h : Capped limit s.view.shm (rest + shareOf (.publishing qp usage) s.returned))
    (hroom : HasRoom s.view.shm s.view.proc.pid) :
    entryQp (publishUsage env usage s.view).shm pid =
        Int32.ofInt (qps (insert (.qp qp) s.returned)) ∧
      Capped limit (publishUsage env usage s.view).shm
        (rest + shareOf .idle (insert (.qp qp) s.returned)) := by
  have hpid := hrec.governed.pid_eq
  have hpos := hrec.governed.pid_pos
  have hqps : qps (insert (.qp qp) s.returned) = qps s.returned + 1 := qps_publish hrec.balanced
  have hsnapshot := hrec.snapshot qp usage rfl
  have hwithin : rest .returned + qps s.returned + (rest .inFlight + 1) ≤ limit.toNat := h.within
  have halone : rest .inFlight + 1 ≤ 1 := h.alone
  have htotal : s.view.shm.globalStats.qpCount =
      Int32.ofInt ((rest .returned + qps s.returned : Nat) : Int) := h.total
  rw [publishUsage_shm hrec.governed.shmMapped, hpid]
  rw [hpid] at hroom
  refine ⟨?_, h.wf.update _ _ _, ?_, ?_, ?_⟩
  · rw [entryQp_update_self h.wf _ _ hpos hroom, hsnapshot, hqps]
    rfl
  · rw [globalQp_update_entry h.wf _ _ hpos hroom, htotal, hsnapshot, hrec.entry]
    show _ = Int32.ofInt ((rest .returned + qps (insert (.qp qp) s.returned) : Nat) : Int)
    rw [hqps, ← Int32.ofInt_sub, ← Int32.ofInt_add]
    congr 1
    omega
  · show rest .returned + qps (insert (.qp qp) s.returned) + (rest .inFlight + 0) ≤ limit.toNat
    omega
  · show rest .inFlight + 0 ≤ 1
    omega

/-- The counter of a process is far from its end. -/
theorem Recorded.noWrap (hrec : Recorded pid limit k s)
    (h : Capped limit s.view.shm (rest + shareOf k s.returned)) : NoWrap .qp (k, s) a := by
  apply noWrap_qp
  rintro qp rfl _
  have hcount := qpCount_uncounted hrec.balanced rfl
  have hwithin : rest .returned + qps s.returned + (rest .inFlight + 1) ≤ limit.toNat := h.within
  have hlimit := UInt32.toNat_lt limit
  omega

/-- **The step lemma** for the process that acts. -/
theorem Recorded.step (hrec : Recorded pid limit k s)
    (h : Capped limit s.view.shm (rest + shareOf k s.returned)) (hok : Solitary rest s a)
    (hmoved : Moved k s a k' s') :
    Recorded pid limit k' s' ∧ Capped limit s'.view.shm (rest + shareOf k' s'.returned) := by
  have hbalanced : Balanced .qp s' (holds k') := hrec.balanced.step_alone hmoved (hrec.noWrap h)
  have hgoverned := hrec.governed.of_setup hmoved.setup
  cases qpMoved_of_moved hmoved with
  | checkOwn _ => exact ⟨⟨hgoverned, hbalanced, hrec.entry, nofun⟩, h⟩
  | checkGlobal hpass =>
      exact ⟨⟨hgoverned, hbalanced, hrec.entry, nofun⟩, Capped.check hrec h hok hpass⟩
  | publish =>
      obtain ⟨hentry, hcapped⟩ := hrec.publish h hok
      exact ⟨⟨hgoverned, hbalanced, hentry, nofun⟩, hcapped⟩
  | other hshm _ hkept hflight _ hsnapshot =>
      have hreturned : qps s'.returned = qps s.returned := by
        apply hkept
        rintro qp rfl
        exact hok
      have hwithin : rest .returned + qps s.returned + (rest .inFlight + inFlight k.stage) ≤
          limit.toNat := h.within
      have halone : rest .inFlight + inFlight k.stage ≤ 1 := h.alone
      refine ⟨⟨hgoverned, hbalanced, ?_, ?_⟩, hshm ▸ h.wf, ?_, ?_, ?_⟩
      · rw [hshm, hreturned]
        exact hrec.entry
      · intro qp usage hk
        obtain ⟨rfl, rfl, rfl⟩ := hsnapshot qp usage hk
        have hcount := qpCount_counted hrec.balanced rfl
        show s'.view.proc.intercept.qpCount.toInt32 = _
        rw [toInt32_eq_ofInt, hcount]
        rfl
      · have htotal : s.view.shm.globalStats.qpCount =
            Int32.ofInt ((rest .returned + qps s.returned : Nat) : Int) := h.total
        show _ = Int32.ofInt ((rest .returned + qps s'.returned : Nat) : Int)
        rw [hshm, hreturned]
        exact htotal
      · show rest .returned + qps s'.returned + (rest .inFlight + inFlight k'.stage) ≤ limit.toNat
        omega
      · show rest .inFlight + inFlight k'.stage ≤ 1
        omega

theorem entryQp_publish_ne (hgov : Governed pid limit s.view.proc) (hwf : TableWf s.view.shm)
    (env : HookEnv) (usage : ResourceUsage) {q : Int} (hq : q ≠ pid) :
    entryQp (publishUsage env usage s.view).shm q = entryQp s.view.shm q := by
  rw [publishUsage_shm hgov.shmMapped, hgov.pid_eq]
  exact entryQp_of_get (usageMap_update_ne hwf _ _ hq)

/-- The entries of the other processes are left alone. -/
theorem entryQp_other (hgov : Governed pid limit s.view.proc) (hwf : TableWf s.view.shm)
    (hmoved : QpMoved k s a k' s') {q : Int} (hq : q ≠ pid) :
    entryQp s'.view.shm q = entryQp s.view.shm q := by
  cases hmoved with
  | checkOwn | checkGlobal => rfl
  | publish => exact entryQp_publish_ne hgov hwf _ _ hq
  | other hshm _ _ _ _ _ => rw [hshm]

end Invariant

/-! ## Any number of processes -/

section Result

variable {ι : Type}

/-- Processes with different pids and the same global limit, none of which has
called a hook, and an empty segment. -/
structure GlobalStart (pid : ι → Int) (limit : UInt32) (c : Config ι Private Segments) : Prop where
  distinct : Function.Injective pid
  governed : ∀ i, Governed (pid i) limit (c.control i).proc
  idle : ∀ i, (c.control i).pc = .idle
  live : ∀ i, (c.control i).live = ∅
  returned : ∀ i, (c.control i).returned = ∅
  counter : ∀ i, (c.control i).proc.intercept.qpCount = 0
  wf : TableWf c.shared.shm
  empty : usageMap c.shared.shm = .empty
  total : c.shared.shm.globalStats.qpCount = 0

theorem GlobalStart.recorded {pid : ι → Int} {limit : UInt32} {c : Config ι Private Segments}
    (h : GlobalStart pid limit c) (i : ι) :
    Recorded (pid i) limit (c.control i).pc (join (c.control i) c.shared) where
  governed := h.governed i
  balanced := by
    rw [h.idle i]
    constructor
    · show (c.control i).live.val = (c.control i).returned.val + 0 + 0
      rw [h.live i, h.returned i]
      rfl
    · show (c.control i).proc.intercept.qpCount.toNat =
        Counter.qp.amount ((c.control i).returned.val + 0 + 0)
      rw [h.counter i, h.returned i]
      rfl
  entry := by
    show entryQp c.shared.shm (pid i) = Int32.ofInt (qps (c.control i).returned)
    unfold entryQp
    rw [h.empty, h.returned i]
    rfl
  snapshot := by
    intro qp usage hk
    rw [h.idle i] at hk
    cases hk

variable [Fintype ι]

end Result

/-! ## Two processes and one QP -/

/-- Both pass the checks, and each creates its QP afterwards. -/
def bothCheckFirst : List (Bool × Action) :=
  [(false, .checkOwn false plainAttr), (false, .checkGlobal), (true, .checkOwn false plainAttr),
    (true, .checkGlobal), (false, .tenantStep quietEnv), (false, .createQp (some 1)),
    (true, .tenantStep quietEnv), (true, .createQp (some 2))]

end MtRdma.Ports.GlobalLimit
