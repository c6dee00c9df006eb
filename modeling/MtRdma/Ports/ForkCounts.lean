import MtRdma.Ports.HookFrame
import MtRdma.Ports.QpPublication
import MtRdma.Ports.TableWrites

/-!
# QPs across forks

A forked process starts with a copy of its parent's `g_intercept_state` under
a pid of its own.  The fork handling of the hooks binds the new pid to a
tenant, but the private QP counter stays what the parent had counted, and the
next `ibv_create_qp` publishes it under the new pid: the parent's QPs are
counted once more.

The entry of a process and the total are right as long as a process that
creates a QP holds no more in its private counter than its own entry records.
-/

namespace MtRdma.Ports.ForkCounts

open Verified
open Verified.MachineInt
open Verified.Runs
open Verified.SlotScan
open SharedMemory
open SharedMemoryTenant (TenantSharedMemory)
open RdmaHooks
open HookPieces
open QpPublication

/-! ## The process tree -/

/-- The processes by pid, and the two segments. -/
structure ForkWorld where
  procs : Int → Option Process
  shm : SharedMemoryData
  tenant : TenantSharedMemory

inductive ForkEvent where
  | fork (parent child : Int)
  | create (pid : Int) (env : HookEnv) (real : QpInitAttr → Option Nat) (attr : QpInitAttr)

namespace ForkWorld

def view (w : ForkWorld) (p : Process) : View := ⟨p, w.shm, w.tenant⟩

/-- The child has its parent's static variables and a pid of its own. -/
def afterFork (w : ForkWorld) (p : Process) (child : Int) : ForkWorld :=
  { w with procs := Function.update w.procs child (some { p with pid := child }) }

/-- Process `pid` works on the view `v`. -/
def afterCall (pid : Int) (w : ForkWorld) (v : View) : ForkWorld :=
  ⟨Function.update w.procs pid (some v.proc), v.shm, v.tenant⟩

end ForkWorld

/-- Forks, and atomic calls of `ibv_create_qp` that succeed. -/
inductive ForkStep : ForkWorld → ForkEvent → ForkWorld → Prop
  | fork {w : ForkWorld} {p : Process} {parent child : Int} : w.procs parent = some p →
      0 < child → w.procs child = none → ForkStep w (.fork parent child) (w.afterFork p child)
  | create {w : ForkWorld} {p : Process} {pid : Int} {env : HookEnv}
      {real : QpInitAttr → Option Nat} {attr : QpInitAttr} {qp : Nat} : w.procs pid = some p →
      (ibvCreateQp env real attr (w.view p)).1.qp = some qp →
      ForkStep w (.create pid env real attr)
        (w.afterCall pid (ibvCreateQp env real attr (w.view p)).2)

def ForkEvent.creates : ForkEvent → Bool
  | .create .. => true
  | .fork .. => false

def ForkEvent.createsBy (pid : Int) : ForkEvent → Bool
  | .create pid' .. => pid' = pid
  | .fork .. => false

/-- The QPs created by all processes, and by one of them. -/
def created (events : List ForkEvent) : Nat := events.countP ForkEvent.creates

def createdBy (pid : Int) (events : List ForkEvent) : Nat :=
  events.countP (ForkEvent.createsBy pid)

theorem createdBy_le (pid : Int) (events : List ForkEvent) :
    createdBy pid events ≤ created events := by
  refine List.countP_mono_left ?_
  intro e _ he
  cases e with
  | create => rfl
  | fork => cases he

section Counting

variable (events : List ForkEvent) (parent child pid q : Int) (env : HookEnv)
  (real : QpInitAttr → Option Nat) (attr : QpInitAttr)

@[simp] theorem created_fork :
    created (events ++ [.fork parent child]) = created events := by
  unfold created
  rw [List.countP_append]
  rfl

@[simp] theorem createdBy_fork :
    createdBy q (events ++ [.fork parent child]) = createdBy q events := by
  unfold createdBy
  rw [List.countP_append]
  rfl

@[simp] theorem created_create :
    created (events ++ [.create pid env real attr]) = created events + 1 := by
  unfold created
  rw [List.countP_append]
  rfl

theorem createdBy_create :
    createdBy q (events ++ [.create pid env real attr]) =
      createdBy q events + if pid = q then 1 else 0 := by
  unfold createdBy
  rw [List.countP_append, List.countP_singleton]
  by_cases hq : pid = q <;> simp [ForkEvent.createsBy, hq]

end Counting

/-! ## A successful creation -/

/-- Interception is on and the segment is mapped, once the hooks are
initialised. -/
def Attached (env : HookEnv) (v : View) : Prop :=
  rdmaInterceptIsEnabled (hooksInitOnce env v).proc = true ∧
    (hooksInitOnce env v).proc.shmMapped = true

section Creation

variable {env : HookEnv} {real : QpInitAttr → Option Nat} {attr : QpInitAttr} {v : View} {qp : Nat}

theorem createForTenant_created (h : (createForTenant env real attr v).1.qp = some qp) :
    ∃ u, SameAccounts v u ∧
      (createForTenant env real attr v).2 = publish env { u with proc := countOwnQp u.proc } := by
  refine ⟨(tenantStep env v).2, .tenantStep env v, ?_⟩
  have hcases := createForTenant_cases env real attr v
  generalize createForTenant env real attr v = result at hcases h ⊢
  cases hcases with
  | denied | failed => cases h
  | created => rfl

/-- A QP that the hook accounts for is counted and published. -/
theorem ibvCreateQp_created (henabled : rdmaInterceptIsEnabled (hooksInitOnce env v).proc = true)
    (h : (ibvCreateQp env real attr v).1.qp = some qp) :
    ∃ u, SameAccounts (hooksInitOnce env v) u ∧
      (ibvCreateQp env real attr v).2 = publish env { u with proc := countOwnQp u.proc } := by
  have hcases := ibvCreateQp_cases env real attr v
  generalize ibvCreateQp env real attr v = result at hcases h ⊢
  cases hcases with
  | missing | refused => cases h
  | passed _ hoff => simp [henabled] at hoff
  | checked => exact createForTenant_created h

theorem hooksInitOnce_qpCount (env : HookEnv) (v : View) :
    (hooksInitOnce env v).proc.intercept.qpCount = v.proc.intercept.qpCount := by
  have hinit : ∀ st, (initIfNeeded env st).qpCount = st.qpCount := by
    intro st
    unfold initIfNeeded
    split
    · rfl
    · split <;> rfl
  unfold hooksInitOnce
  split
  · rfl
  · unfold initFunctionPointers
    dsimp only
    split <;> exact hinit v.proc.intercept

end Creation

/-! ## What the table records -/

/-- The table records what each process and all of them have created. -/
structure Recorded (events : List ForkEvent) (s : SharedMemoryData) : Prop where
  wf : TableWf s
  entry : ∀ pid, 0 < pid → (entryQp s pid).toInt = createdBy pid events
  total : s.globalStats.qpCount.toInt = created events

section Table

variable {events : List ForkEvent} {s : SharedMemoryData} {pid : Int}

/-- A first call finds an apparently new table only before anything has been
created. -/
theorem Recorded.shmInit (h : Recorded events s) : Recorded events (shmInit s) := by
  by_cases hnew : s.globalStats.qpCount = 0 ∧ s.globalStats.mrCount = 0 ∧
      s.globalStats.memoryUsed = 0
  · have hnone : created events = 0 := by
      have htotal := h.total
      rw [hnew.1] at htotal
      exact Int.ofNat_eq_zero.mp htotal.symm
    have hempty : ∀ pid, 0 < pid → lookup (SharedMemory.shmInit s).processPids pid = none := by
      intro pid hpos
      unfold SharedMemory.shmInit
      rw [if_pos hnew, lookup_eq_none_iff]
      exact fun _ => hpos.ne
    refine ⟨h.wf.shmInit, ?_, ?_⟩
    · intro pid hpos
      have hby := createdBy_le pid events
      have hget : (usageMap (SharedMemory.shmInit s)).get pid = none := by
        unfold usageMap
        rw [BoundedMap.get_ofSlots hpos.ne', hempty pid hpos]
        rfl
      have hzero : entryQp (SharedMemory.shmInit s) pid = 0 := by
        unfold entryQp
        rw [hget]
        rfl
      rw [hzero]
      show (0 : Int) = _
      omega
    · unfold SharedMemory.shmInit
      rw [if_pos hnew, hnone]
      rfl
  · unfold SharedMemory.shmInit
    rw [if_neg hnew]
    exact h

theorem Recorded.hooksInitOnce {v : View} (h : Recorded events v.shm) (env : HookEnv) :
    Recorded events (hooksInitOnce env v).shm := by
  rcases (hooksInitOnce_view env v).2.2 with hsame | ⟨_, hinit⟩
  · rw [hsame]
    exact h
  · rw [hinit]
    exact h.shmInit

/-- Publishing one more QP than the entry records is what the table should
record of a creation. -/
theorem Recorded.publish (h : Recorded events s) (hpos : 0 < pid) (hroom : HasRoom s pid)
    {usage : ResourceUsage} (husage : usage.qpCount.toInt = (entryQp s pid).toInt + 1)
    (hbound : s.globalStats.qpCount.toInt + 1 < 2 ^ 31) (start : UInt64) (env : HookEnv)
    (real : QpInitAttr → Option Nat) (attr : QpInitAttr) :
    Recorded (events ++ [.create pid env real attr])
      (shmUpdateProcessResources pid usage start s).2 := by
  refine ⟨h.wf.update pid usage start, ?_, ?_⟩
  · intro q hq
    rw [createdBy_create]
    by_cases heq : pid = q
    · subst heq
      rw [entryQp_update_self h.wf usage start hpos hroom, husage, h.entry pid hpos, if_pos rfl]
      rfl
    · rw [entryQp_of_get (usageMap_update_ne h.wf usage start (Ne.symm heq)), if_neg heq]
      exact h.entry q hq
  · have hentry := h.entry pid hpos
    have hle := createdBy_le pid events
    have hsum := h.total
    have hone : usage.qpCount = entryQp s pid + 1 := by
      rw [← Int32.toInt_inj, husage, toInt_add_one (by omega)]
    have hmove : s.globalStats.qpCount + (usage.qpCount - entryQp s pid) =
        s.globalStats.qpCount + 1 := by
      rw [hone]
      grind
    rw [globalQp_update_entry h.wf usage start hpos hroom, hmove, toInt_add_one (by omega),
      h.total, created_create]
    rfl

end Table

/-! ## Runs -/

/-- The process that creates a QP is attached and has an entry or a free slot;
its private counter is what its entry records; and there are fewer than
`2 ^ 31` QPs. -/
def CountsOwn (w : ForkWorld) : ForkEvent → Prop
  | .fork .. => True
  | .create pid env _ _ => ∀ p, w.procs pid = some p →
      Attached env (w.view p) ∧ HasRoom (hooksInitOnce env (w.view p)).shm pid ∧
      (p.intercept.qpCount.toNat : Int) = (entryQp w.shm pid).toInt ∧
      w.shm.globalStats.qpCount.toInt + 1 < 2 ^ 31

structure ForkInv (events : List ForkEvent) (w : ForkWorld) : Prop where
  pid : ∀ pid p, w.procs pid = some p → p.pid = pid ∧ 0 < pid
  recorded : Recorded events w.shm

section Steps

variable {events : List ForkEvent} {w w' : ForkWorld} {e : ForkEvent}

theorem ForkInv.fork (h : ForkInv events w) (p : Process) {parent child : Int}
    (hpos : 0 < child) : ForkInv (events ++ [.fork parent child]) (w.afterFork p child) := by
  refine ⟨?_, ⟨h.recorded.wf, ?_, ?_⟩⟩
  · intro pid q hq
    change Function.update w.procs child (some { p with pid := child }) pid = some q at hq
    by_cases hpid : pid = child
    · subst hpid
      rw [Function.update_self] at hq
      obtain rfl := Option.some.inj hq
      exact ⟨rfl, hpos⟩
    · rw [Function.update_of_ne hpid] at hq
      exact h.pid pid q hq
  · intro pid hpid
    rw [createdBy_fork]
    exact h.recorded.entry pid hpid
  · rw [created_fork]
    exact h.recorded.total

/-- What a process publishes once it has counted a QP. -/
theorem ownUsage_countOwnQp {p : Process} {n : UInt32} (hcount : p.intercept.qpCount = n)
    (hsmall : n.toNat + 1 < 2 ^ 31) :
    (ownUsage (countOwnQp p)).qpCount.toInt = n.toNat + 1 := by
  have hnext : (countOwnQp p).intercept.qpCount.toNat = n.toNat + 1 := by
    show (p.intercept.qpCount + 1).toNat = _
    rw [hcount]
    exact toNat_add_one32 (by omega)
  rw [ownUsage_qpCount (by omega), hnext]
  rfl

theorem ForkInv.create (h : ForkInv events w) {p : Process} {pid : Int} {env : HookEnv}
    {real : QpInitAttr → Option Nat} {attr : QpInitAttr} {qp : Nat} (hp : w.procs pid = some p)
    (hok : CountsOwn w (.create pid env real attr))
    (hqp : (ibvCreateQp env real attr (w.view p)).1.qp = some qp) :
    ForkInv (events ++ [.create pid env real attr])
      (w.afterCall pid (ibvCreateQp env real attr (w.view p)).2) := by
  obtain ⟨hpid, hpos⟩ := h.pid pid p hp
  obtain ⟨⟨henabled, hmapped⟩, hroom, hown, hbound⟩ := hok p hp
  obtain ⟨u, hsame, heq⟩ := ibvCreateQp_created henabled hqp
  have hrec : Recorded events u.shm := by
    rw [hsame.shm]
    exact Recorded.hooksInitOnce (v := w.view p) h.recorded env
  have hupid : (countOwnQp u.proc).pid = pid := by
    show u.proc.pid = pid
    rw [hsame.setup.pid, (hooksInitOnce_view env (w.view p)).1]
    exact hpid
  have humapped : (countOwnQp u.proc).shmMapped = true := hsame.setup.shmMapped.trans hmapped
  have hcount : u.proc.intercept.qpCount = p.intercept.qpCount := by
    rw [hsame.intercept, hooksInitOnce_qpCount]
    rfl
  -- the private counter is below the bound, since the entry is
  have hentry := h.recorded.entry pid hpos
  have hentry' := hrec.entry pid hpos
  have htotal := h.recorded.total
  have htotal' := hrec.total
  have hle := createdBy_le pid events
  have husage : (ownUsage (countOwnQp u.proc)).qpCount.toInt = (entryQp u.shm pid).toInt + 1 := by
    rw [ownUsage_countOwnQp hcount (by omega)]
    omega
  rw [heq]
  unfold RdmaHooks.publish
  rw [if_pos humapped]
  refine ⟨?_, ?_⟩
  · intro q p' hp'
    change Function.update w.procs pid (some (countOwnQp u.proc)) q = some p' at hp'
    by_cases hq : q = pid
    · subst hq
      rw [Function.update_self] at hp'
      obtain rfl := Option.some.inj hp'
      exact ⟨hupid, hpos⟩
    · rw [Function.update_of_ne hq] at hp'
      exact h.pid q p' hp'
  · show Recorded _ (shmUpdateProcessResources (countOwnQp u.proc).pid
      (ownUsage (countOwnQp u.proc)) _ u.shm).2
    rw [hupid]
    refine hrec.publish hpos ?_ husage (by omega) _ env real attr
    rw [hsame.shm]
    exact hroom

/-- **The step lemma.** -/
theorem ForkInv.step (h : ForkInv events w) (hok : CountsOwn w e) (hstep : ForkStep w e w') :
    ForkInv (events ++ [e]) w' := by
  cases hstep with
  | fork _ hpos _ => exact h.fork _ hpos
  | create hp hqp => exact h.create hp hok hqp

end Steps

/-- One process, and a table that records no QP. -/
structure ForkStart (root : Int) (w : ForkWorld) : Prop where
  procs : ∀ pid p, w.procs pid = some p → pid = root ∧ p.pid = root ∧ 0 < root
  wf : TableWf w.shm
  entry : ∀ pid, 0 < pid → entryQp w.shm pid = 0
  total : w.shm.globalStats.qpCount = 0

theorem ForkStart.inv {root : Int} {w : ForkWorld} (h : ForkStart root w) : ForkInv [] w where
  pid := by
    intro pid p hp
    obtain ⟨rfl, hpid, hpos⟩ := h.procs pid p hp
    exact ⟨hpid, hpos⟩
  recorded := by
    refine ⟨h.wf, ?_, ?_⟩
    · intro pid hpos
      rw [h.entry pid hpos]
      rfl
    · rw [h.total]
      rfl

/-- **Forks do not count QPs twice** as long as every process that creates one
has a private counter that agrees with its entry: at every moment the total is
the number of QPs created by all processes of the tree, and the entry of each
process is the number it created itself. -/
theorem forks_count_once {root : Int} {w₀ w : ForkWorld} {events : List ForkEvent}
    (hstart : ForkStart root w₀)
    (hrun : Run (fun w e w' => CountsOwn w e ∧ ForkStep w e w') w₀ events w) :
    w.shm.globalStats.qpCount.toInt = created events ∧
      ∀ pid, 0 < pid → (entryQp w.shm pid).toInt = createdBy pid events := by
  have hinv : ForkInv events w :=
    Run.history (P := ForkInv) hstart.inv (fun _ _ _ _ h hstep => h.step hstep.1 hstep.2) hrun
  exact ⟨hinv.recorded.total, hinv.recorded.entry⟩

/-! ## A parent and a child -/

/-- Process 100 or a child of it, with `qps` QPs in its counter. -/
def familyProcess (pid : Int) (qps : UInt32) : Process :=
  { HookCounters.plainProcess 100 with pid := pid, intercept := ⟨true, .default, qps, 0, 0⟩ }

/-- Process 100, and nothing recorded. -/
def rootWorld : ForkWorld where
  procs := Function.update (fun _ => none) 100 (some (familyProcess 100 0))
  shm := zeroed
  tenant := SharedMemoryTenant.zeroed

theorem rootWorld_start : ForkStart 100 rootWorld where
  procs := by
    intro pid p hp
    change Function.update (fun _ => none) (100 : Int) (some (familyProcess 100 0)) pid =
      some p at hp
    by_cases hpid : pid = 100
    · subst hpid
      obtain rfl := Option.some.inj hp
      exact ⟨rfl, rfl, by decide⟩
    · rw [Function.update_of_ne hpid] at hp
      cases hp
  wf := TableWf.zeroed
  entry := by
    intro pid _
    exact entryQp_zeroed pid
  total := rfl

/-- What such a process publishes when it creates a QP. -/
theorem familyProcess_create {pid : Int} {qps : UInt32} {s : SharedMemoryData}
    {tenant : TenantSharedMemory} (qp : Nat) (attr : QpInitAttr) :
    ibvCreateQp quietEnv (fun _ => some qp) attr ⟨familyProcess pid qps, s, tenant⟩ =
      (⟨some qp, none, some attr⟩,
        ⟨familyProcess pid (qps + 1),
          (shmUpdateProcessResources pid ⟨(qps + 1).toInt32, 0, 0⟩ 0 s).2, tenant⟩) := rfl

/-- The verb answers with QP `qp`. -/
def createEvent (pid : Int) (qp : Nat) : ForkEvent :=
  .create pid quietEnv (fun _ => some qp) ⟨.rc, 1, 1⟩

theorem createEvent_step {w : ForkWorld} {pid : Int} {qps : UInt32} (qp : Nat)
    (hp : w.procs pid = some (familyProcess pid qps)) :
    ForkStep w (createEvent pid qp)
      ⟨Function.update w.procs pid (some (familyProcess pid (qps + 1))),
        (shmUpdateProcessResources pid ⟨(qps + 1).toInt32, 0, 0⟩ 0 w.shm).2, w.tenant⟩ := by
  have hcreate : ibvCreateQp quietEnv (fun _ => some qp) ⟨.rc, 1, 1⟩
      (w.view (familyProcess pid qps)) = _ := familyProcess_create qp ⟨.rc, 1, 1⟩
  have hstep := ForkStep.create hp (congrArg (fun r => r.1.qp) hcreate)
  rw [hcreate] at hstep
  exact hstep

/-- The empty table has a slot for any pid. -/
theorem slotFor_zeroed {pid : Int} (hpos : 0 < pid) : slotFor pid zeroed = some 0 := by
  have hpids : ∀ i, zeroed.processPids i ≠ pid := fun _ => hpos.ne
  unfold slotFor
  rw [if_neg (by omega), (lookup_eq_none_iff _ _).mpr hpids,
    lookup_first (show zeroed.processPids 0 = 0 from rfl)]
  rfl

/-- The root forks before it creates anything. -/
def earlyFork : ForkWorld := rootWorld.afterFork (familyProcess 100 0) 101

theorem earlyFork_child : earlyFork.procs 101 = some (familyProcess 101 0) := by
  show Function.update rootWorld.procs 101 (some (familyProcess 101 0)) 101 = _
  rw [Function.update_self]

theorem rootWorld_root : rootWorld.procs 100 = some (familyProcess 100 0) := by
  show Function.update (fun _ => none) (100 : Int) (some (familyProcess 100 0)) 100 = _
  rw [Function.update_self]

theorem rootWorld_child : rootWorld.procs 101 = none := by
  show Function.update (fun _ => none) (100 : Int) (some (familyProcess 100 0)) 101 = none
  rw [Function.update_of_ne (by decide)]

/-- The child of such a fork counts from zero. -/
theorem forks_count_once_early :
    ∃ w, Run (fun w e w' => CountsOwn w e ∧ ForkStep w e w') rootWorld
        [.fork 100 101, createEvent 101 1] w ∧
      w.shm.globalStats.qpCount.toInt = 1 ∧ (entryQp w.shm 101).toInt = 1 := by
  have hok : CountsOwn earlyFork (createEvent 101 1) := by
    intro p hp
    rw [earlyFork_child] at hp
    obtain rfl := Option.some.inj hp
    refine ⟨⟨rfl, rfl⟩, hasRoom_zeroed 101, ?_, by decide⟩
    · show ((0 : Nat) : Int) = (entryQp zeroed 101).toInt
      rw [entryQp_zeroed]
      rfl
  have hfork : ForkStep rootWorld (.fork 100 101) earlyFork :=
    .fork rootWorld_root (by decide) rootWorld_child
  have hstart : Run (fun w e w' => CountsOwn w e ∧ ForkStep w e w') rootWorld [] rootWorld := .start
  have hforked := hstart.snoc (a := ForkEvent.fork 100 101) ⟨trivial, hfork⟩
  have hrun := hforked.snoc ⟨hok, createEvent_step 1 earlyFork_child⟩
  obtain ⟨htotal, hentry⟩ := forks_count_once rootWorld_start hrun
  exact ⟨_, hrun, htotal, hentry 101 (by decide)⟩

theorem oneQp_eq : oneQp = updateTable (fun _ => 0) 100 ⟨1, 0, 0⟩ zeroed := rfl

theorem oneQp_hasRoom : HasRoom oneQp 101 := by
  refine .inr ((exists_hole_iff 0 oneQp.processPids).mpr ?_)
  have hused : (used 0 zeroed.processPids).card = 0 := by
    show (used 0 fun _ : Slot => (0 : Int)).card = 0
    rw [used_const, Finset.card_empty]
  have hmax := maxProcesses_eq
  rw [oneQp_eq, card_used_update (slotFor_zeroed (by decide)), hused]
  split <;> omega

theorem oneQp_entry : entryQp oneQp 101 = 0 := by
  rw [oneQp_eq, entryQp_of_get (get_update_of_ne (by decide) (by decide)), entryQp_zeroed]

/-- The root has created QP 1. -/
def rootCreated : ForkWorld where
  procs := Function.update rootWorld.procs 100 (some (familyProcess 100 1))
  shm := oneQp
  tenant := SharedMemoryTenant.zeroed

/-- Then it forks. -/
def lateFork : ForkWorld := rootCreated.afterFork (familyProcess 100 1) 101

/-- **A fork counts QPs twice.**  The root creates a QP and forks; the child
creates another one.  There are two QPs, but the entry of the child records two
of its own, and the total is three. -/
theorem fork_counts_twice :
    ∃ w, Run ForkStep rootWorld [createEvent 100 1, .fork 100 101, createEvent 101 2] w ∧
      created [createEvent 100 1, .fork 100 101, createEvent 101 2] = 2 ∧
      entryQp w.shm 101 = 2 ∧ w.shm.globalStats.qpCount = 3 := by
  have hcreated : ForkStep rootWorld (createEvent 100 1) rootCreated :=
    createEvent_step 1 rootWorld_root
  have hforked : ForkStep rootCreated (.fork 100 101) lateFork := by
    refine .fork ?_ (by decide) ?_
    · show Function.update rootWorld.procs 100 (some (familyProcess 100 1)) 100 = _
      rw [Function.update_self]
    · show Function.update rootWorld.procs 100 (some (familyProcess 100 1)) 101 = none
      rw [Function.update_of_ne (by decide), rootWorld_child]
  have hchild : lateFork.procs 101 = some (familyProcess 101 1) := by
    show Function.update rootCreated.procs 101 (some (familyProcess 101 1)) 101 = _
    rw [Function.update_self]
  have hrun := ((Run.start.snoc hcreated).snoc hforked).snoc (createEvent_step 2 hchild)
  have hwf : TableWf oneQp := TableWf.zeroed.update _ _ _
  refine ⟨_, hrun, rfl, ?_, ?_⟩
  · exact entryQp_update_self hwf ⟨2, 0, 0⟩ 0 (by decide) oneQp_hasRoom
  · show (shmUpdateProcessResources 101 ⟨2, 0, 0⟩ 0 oneQp).2.globalStats.qpCount = 3
    rw [globalQp_update_entry hwf _ _ (by decide) oneQp_hasRoom, oneQp_total, oneQp_entry]
    decide

end MtRdma.Ports.ForkCounts
