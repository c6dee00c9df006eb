import Mathlib.Tactic.Abel
import MtRdma.Verified.MachineInt
import MtRdma.Ports.HookPieces

/-!
# The counters of a process and its threads

`qp_count`, `mr_count` and `memory_used` are changed under `resource_mutex`,
but not together with the verb: an object exists before it is counted, and is
still counted after it is gone.  The decrements are guarded, and a guard that
held a decrement back would never be made up for.

The invariant keeps track of every object on its way.  A counter adds up the
objects whose creating hook has returned, those that are counted and not
returned, and those that are destroyed and not uncounted.  Since an object is
only destroyed after it was returned, the guards always let the decrement
through, as long as no increment wraps around.
-/

namespace MtRdma.Ports.HookCounters

open Verified.MachineInt
open Verified.Runs
open Verified.Interleaving
open SharedMemory
open RdmaHooks
open HookPieces

/-! ## Counters -/

/-- The counters of `g_intercept_state`. -/
inductive Counter where
  | qp
  | mr
  | bytes

namespace Counter

/-- What an object adds to a counter. -/
def size : Counter → Object → Nat
  | .qp, o => if o.IsQp then 1 else 0
  | .mr, o => if o.IsMr then 1 else 0
  | .bytes, o => o.bytes

def value : Counter → InterceptState → Nat
  | .qp, st => st.qpCount.toNat
  | .mr, st => st.mrCount.toNat
  | .bytes, st => st.memoryUsed.toNat

/-- Where a counter wraps around. -/
def modulus : Counter → Nat
  | .qp => 2 ^ 32
  | .mr => 2 ^ 32
  | .bytes => 2 ^ 64

/-- What a collection of objects adds up to. -/
def amount (c : Counter) (objects : Multiset Object) : Nat := (objects.map c.size).sum

theorem amount_zero (c : Counter) : c.amount 0 = 0 := rfl

theorem amount_add (c : Counter) (a b : Multiset Object) :
    c.amount (a + b) = c.amount a + c.amount b := by
  simp [amount]

theorem amount_singleton (c : Counter) (o : Object) : c.amount {o} = c.size o := by
  simp [amount]

end Counter

/-! ## The pieces that change a counter -/

section Values

variable {c : Counter} {p : Process} {n : Nat}

theorem value_countOwnQp (qp : Nat)
    (h : c.value p.intercept + c.size (.qp qp) < c.modulus) :
    c.value (countOwnQp p).intercept = c.value p.intercept + c.size (.qp qp) := by
  cases c with
  | qp => exact toNat_add_one32 h
  | mr | bytes => rfl

theorem value_uncountOwnQp (qp : Nat) (h : c.value p.intercept = n + c.size (.qp qp)) :
    c.value (uncountOwnQp p).intercept = n := by
  cases c with
  | qp => exact toNat_guarded_sub_one h
  | mr | bytes => exact h

theorem value_countOwnMr (mr : Nat) (length : UInt64)
    (h : c.value p.intercept + c.size (.mr mr length) < c.modulus) :
    c.value (countOwnMr length p).intercept = c.value p.intercept + c.size (.mr mr length) := by
  cases c with
  | qp => rfl
  | mr => exact toNat_add_one32 h
  | bytes =>
      have hadd : (p.intercept.memoryUsed + length).toNat =
          (p.intercept.memoryUsed.toNat + length.toNat) % 2 ^ 64 := UInt64.toNat_add _ _
      have hlt : p.intercept.memoryUsed.toNat + length.toNat < 2 ^ 64 := h
      rw [Nat.mod_eq_of_lt hlt] at hadd
      exact hadd

theorem value_uncountOwnMr (mr : Nat) (length : UInt64)
    (h : c.value p.intercept = n + c.size (.mr mr length)) :
    c.value (uncountOwnMr length p).intercept = n := by
  cases c with
  | qp => exact h
  | mr => exact toNat_guarded_sub_one h
  | bytes =>
      have hcount : p.intercept.memoryUsed.toNat = n + length.toNat := h
      have hle : length ≤ p.intercept.memoryUsed := by
        rw [UInt64.le_iff_toNat_le, hcount]
        exact Nat.le_add_left _ n
      show (if length ≤ p.intercept.memoryUsed then p.intercept.memoryUsed - length
        else p.intercept.memoryUsed).toNat = n
      rw [if_pos hle, UInt64.toNat_sub_of_le _ _ hle, hcount]
      omega

end Values

/-! ## Objects on their way -/

/-- What a thread can be in the middle of: an object that is not counted yet,
one that is counted and not returned, or one that is gone and still
counted. -/
inductive Holding where
  | uncounted
  | counted
  | owed

def stageHolds : Stage → Holding → Multiset Object
  | .uncounted o, .uncounted => {o}
  | .counted o, .counted => {o}
  | .owed o, .owed => {o}
  | _, _ => 0

/-- The objects a thread holds. -/
def holds (k : Pc) : Holding → Multiset Object := stageHolds k.stage

/-- The existing objects are those returned and those on their way; the
counter adds up the returned ones, the counted ones, and those owed to it. -/
structure Balanced (c : Counter) (s : Shared) (held : Holding → Multiset Object) : Prop where
  live : s.live.val = s.returned.val + held .uncounted + held .counted
  count : c.value s.view.proc.intercept = c.amount (s.returned.val + held .counted + held .owed)

namespace Balanced

variable {c : Counter} {s : Shared} {rest : Holding → Multiset Object} {o : Object}

/-- A view with the same counters will do. -/
theorem of_view {held : Holding → Multiset Object} (h : Balanced c s held) {v : View}
    (hv : v.proc.intercept = s.view.proc.intercept) : Balanced c { s with view := v } held where
  live := h.live
  count := by
    show c.value v.proc.intercept = _
    rw [hv]
    exact h.count

theorem create (h : Balanced c s rest) (hfresh : o ∉ s.live) :
    Balanced c (s.create o) (rest + stageHolds (.uncounted o)) where
  live := by
    show (insert o s.live).val = s.returned.val + (rest .uncounted + {o}) + (rest .counted + 0)
    rw [Finset.insert_val_of_notMem hfresh, h.live, ← Multiset.singleton_add]
    abel
  count := by
    rw [show c.value (s.create o).view.proc.intercept = _ from h.count]
    simp [stageHolds, Shared.create]

theorem counted (h : Balanced c s (rest + stageHolds (.uncounted o))) {p : Process}
    (hp : c.value p.intercept = c.value s.view.proc.intercept + c.size o) :
    Balanced c { s with view := { s.view with proc := p } } (rest + stageHolds (.counted o)) where
  live := by
    have hlive : s.live.val = s.returned.val + (rest .uncounted + {o}) + (rest .counted + 0) :=
      h.live
    show s.live.val = s.returned.val + (rest .uncounted + 0) + (rest .counted + {o})
    rw [hlive]
    abel
  count := by
    have hcount : c.value s.view.proc.intercept =
        c.amount (s.returned.val + (rest .counted + 0) + (rest .owed + 0)) := h.count
    show c.value p.intercept =
      c.amount (s.returned.val + (rest .counted + {o}) + (rest .owed + 0))
    rw [hp, hcount]
    simp only [Counter.amount_add, Counter.amount_singleton, Counter.amount_zero]
    omega

/-- An object on its way is not returned. -/
theorem notMem_returned (h : Balanced c s (rest + stageHolds (.counted o))) :
    o ∉ s.returned := by
  intro hmem
  have hlive : s.live.val = s.returned.val + (rest .uncounted + 0) + (rest .counted + {o}) :=
    h.live
  have hnodup : (s.returned.val + (rest .uncounted + (rest .counted + {o}))).Nodup := by
    have hval := s.live.nodup
    rw [hlive, Multiset.add_zero, Multiset.add_assoc] at hval
    exact hval
  have hdisj := (Multiset.nodup_add.mp hnodup).2.2
  exact Multiset.disjoint_left.mp hdisj hmem (by simp)

theorem handOver (h : Balanced c s (rest + stageHolds (.counted o))) :
    Balanced c (s.handOver o) rest := by
  have hval : (insert o s.returned).val = {o} + s.returned.val := by
    rw [Finset.insert_val_of_notMem h.notMem_returned, Multiset.singleton_add]
  constructor
  · have hlive : s.live.val = s.returned.val + (rest .uncounted + 0) + (rest .counted + {o}) :=
      h.live
    show s.live.val = (insert o s.returned).val + rest .uncounted + rest .counted
    rw [hlive, hval]
    abel
  · have hcount : c.value s.view.proc.intercept =
        c.amount (s.returned.val + (rest .counted + {o}) + (rest .owed + 0)) := h.count
    show c.value s.view.proc.intercept =
      c.amount ((insert o s.returned).val + rest .counted + rest .owed)
    rw [hcount, hval]
    simp only [Counter.amount_add, Counter.amount_singleton, Counter.amount_zero]
    omega

theorem destroy (h : Balanced c s rest) (hmem : o ∈ s.returned) :
    Balanced c (s.destroy o) (rest + stageHolds (.owed o)) := by
  have hval : s.returned.val = {o} + s.returned.val.erase o := by
    rw [Multiset.singleton_add]
    exact (Multiset.cons_erase hmem).symm
  constructor
  · show (s.live.erase o).val =
      (s.returned.erase o).val + (rest .uncounted + 0) + (rest .counted + 0)
    rw [Finset.erase_val, Finset.erase_val, h.live, Multiset.add_assoc,
      Multiset.erase_add_left_pos _ hmem]
    abel
  · show c.value s.view.proc.intercept =
      c.amount ((s.returned.erase o).val + (rest .counted + 0) + (rest .owed + {o}))
    rw [h.count, hval, Finset.erase_val]
    simp only [Counter.amount_add, Counter.amount_singleton, Counter.amount_zero]
    omega

theorem uncounted (h : Balanced c s (rest + stageHolds (.owed o))) {p : Process}
    (hp : ∀ n, c.value s.view.proc.intercept = n + c.size o → c.value p.intercept = n) :
    Balanced c { s with view := { s.view with proc := p } } rest where
  live := by
    have hlive : s.live.val = s.returned.val + (rest .uncounted + 0) + (rest .counted + 0) :=
      h.live
    simpa using hlive
  count := by
    have hcount : c.value s.view.proc.intercept =
        c.amount (s.returned.val + (rest .counted + 0) + (rest .owed + {o})) := h.count
    apply hp
    rw [hcount]
    simp only [Counter.amount_add, Counter.amount_singleton, Counter.amount_zero]
    omega

end Balanced

/-! ## Every piece keeps the balance -/

/-- The piece does not make the counter wrap around. -/
def NoWrap (c : Counter) : Pc × Shared → Action → Prop
  | (.created qp, s), .countQp =>
      c.value s.view.proc.intercept + c.size (.qp qp) < c.modulus
  | (.registered _ mr length, s), .countMr =>
      c.value s.view.proc.intercept + c.size (.mr mr length) < c.modulus
  | _, _ => True

/-- A thread without an object. -/
theorem add_holds (rest : Holding → Multiset Object) {k : Pc}
    (h : k.stage = .out ∨ k.stage = .checking ∨ k.stage = .permitted) : rest + holds k = rest := by
  funext held
  rcases h with h | h | h
  · simp [holds, h, stageHolds]
  · simp [holds, h, stageHolds]
  · simp [holds, h, stageHolds]

/-- **The step lemma.** -/
theorem Balanced.step {c : Counter} {k k' : Pc} {s s' : Shared} {a : Action}
    {rest : Holding → Multiset Object} (h : Balanced c s (rest + holds k))
    (hmoved : Moved k s a k' s') (hwrap : NoWrap c (k, s) a) :
    Balanced c s' (rest + holds k') := by
  cases hmoved with
  | quiet hview hbefore hafter =>
      have hafter' : k'.stage = .out ∨ k'.stage = .checking ∨ k'.stage = .permitted :=
        hafter.imp id fun h => .inr h.2
      rw [add_holds rest hafter']
      rw [add_holds rest hbefore] at h
      exact h.of_view hview.intercept
  | checkOwn | checkGlobal => exact h
  | createQp hfresh =>
      rw [add_holds rest (.inr (.inr rfl))] at h
      exact h.create hfresh
  | countQp => exact h.counted (value_countOwnQp _ hwrap)
  | readUsage => exact h
  | publish =>
      rw [add_holds rest (.inl rfl)]
      exact Balanced.handOver (h.of_view (congrArg _ (publishUsage_proc _ _ _)))
  | destroyQp hmem =>
      rw [add_holds rest (.inl rfl)] at h
      exact h.destroy hmem
  | uncountQp =>
      rw [add_holds rest (.inl rfl)]
      exact h.uncounted fun _ => value_uncountOwnQp _
  | regMr hfresh =>
      rw [add_holds rest (.inl rfl)] at h
      exact h.create hfresh
  | countMr => exact h.counted (value_countOwnMr _ _ hwrap)
  | returnMr hview =>
      rw [add_holds rest (.inl rfl)]
      exact Balanced.handOver (h.of_view hview.intercept)
  | deregMr hmem =>
      rw [add_holds rest (.inl rfl)] at h
      exact h.destroy hmem
  | uncountMr =>
      rw [add_holds rest (.inl rfl)]
      exact h.uncounted fun _ => value_uncountOwnMr _ _

/-- The step lemma for a single thread. -/
theorem Balanced.step_alone {c : Counter} {k k' : Pc} {s s' : Shared} {a : Action}
    (h : Balanced c s (holds k)) (hmoved : Moved k s a k' s') (hwrap : NoWrap c (k, s) a) :
    Balanced c s' (holds k') := by
  have h₀ : Balanced c s (0 + holds k) := by rwa [zero_add]
  have hstep := h₀.step hmoved hwrap
  rwa [zero_add] at hstep

/-- With no object on its way, a counter is that of the objects that exist. -/
theorem Balanced.value_eq {c : Counter} {s : Shared} (h : Balanced c s 0) :
    c.value s.view.proc.intercept = c.amount s.live.val := by
  have hlive : s.live.val = s.returned.val := by simpa using h.live
  rw [hlive]
  simpa using h.count

/-! ## Any number of threads -/

theorem amount_qp (objects : Finset Object) :
    Counter.qp.amount objects.val = (objects.filter Object.IsQp).card :=
  (Finset.card_filter Object.IsQp objects).symm

theorem amount_mr (objects : Finset Object) :
    Counter.mr.amount objects.val = (objects.filter Object.IsMr).card :=
  (Finset.card_filter Object.IsMr objects).symm

section Result

variable {ι : Type}

/-- A process whose threads are in no hook, with nothing created and nothing
counted. -/
structure ThreadsStart (c : Config ι Pc Shared) : Prop where
  idle : ∀ i, c.control i = .idle
  live : c.shared.live = ∅
  returned : c.shared.returned = ∅
  counters : ∀ counter : Counter, counter.value c.shared.view.proc.intercept = 0

variable [Fintype ι]

theorem tally_holds_idle {control : ι → Pc} (h : ∀ i, control i = .idle) :
    tally holds control = 0 := by
  apply tally_eq_zero
  intro i
  rw [h i]
  exact (zero_add _).symm.trans (add_holds 0 (.inl rfl))

theorem ThreadsStart.balanced {c : Config ι Pc Shared} (h : ThreadsStart c) (counter : Counter) :
    Balanced counter c.shared (tally holds c.control) := by
  rw [tally_holds_idle h.idle]
  constructor
  · rw [h.live, h.returned]
    rfl
  · rw [h.counters counter, h.returned]
    rfl

/-- **The counters are those of the existing objects**, whatever the threads
did, whenever no hook call is in progress and no increment has wrapped
around. -/
theorem counters_match_objects [DecidableEq ι] {c₀ c : Config ι Pc Shared}
    {labels : List (ι × Action)} (hstart : ThreadsStart c₀)
    (hrun : Run (Guarded (fun x a => ∀ counter, NoWrap counter x a) pieceStep) c₀ labels c)
    (hidle : ∀ i, c.control i = .idle) :
    c.shared.view.proc.intercept.qpCount.toNat = (c.shared.live.filter Object.IsQp).card ∧
      c.shared.view.proc.intercept.mrCount.toNat = (c.shared.live.filter Object.IsMr).card ∧
      c.shared.view.proc.intercept.memoryUsed.toNat = ∑ o ∈ c.shared.live, o.bytes := by
  have hcounter : ∀ counter : Counter, counter.value c.shared.view.proc.intercept =
      counter.amount c.shared.live.val := by
    intro counter
    have hinv : Balanced counter c.shared (tally holds c.control) := by
      refine tally_invariant_guarded (I := Balanced counter) ?_ (hstart.balanced counter) hrun
      intro rest k s a k' s' h hwrap hstep
      exact h.step (moved_of_step hstep) (hwrap counter)
    rw [tally_holds_idle hidle] at hinv
    exact hinv.value_eq
  refine ⟨?_, ?_, hcounter .bytes⟩
  · rw [← amount_qp]
    exact hcounter .qp
  · rw [← amount_mr]
    exact hcounter .mr

end Result

/-- A process after its initialization, without a tenant segment. -/
def plainProcess (pid : Int) : Process := { settledProcess pid with tenantInitialized := false }

/-- Threads of such a process, before their first call. -/
def plainThreads (ι : Type) : Config ι Pc Shared :=
  ⟨⟨⟨plainProcess 100, SharedMemory.zeroed, SharedMemoryTenant.zeroed⟩, ∅, ∅⟩, fun _ => .idle⟩

theorem plainThreads_start (ι : Type) : ThreadsStart (plainThreads ι) where
  idle := fun _ => rfl
  live := rfl
  returned := rfl
  counters := fun counter => by cases counter <;> rfl

/-- One thread creates a QP while the other registers an MR; the QP is counted
between the verb of the MR and its count. -/
theorem qp_and_mr_counted : ∃ labels c,
    Run (Guarded (fun x a => ∀ counter, NoWrap counter x a) pieceStep)
        (plainThreads Bool) labels c ∧
      c.shared.live = {.qp 1, .mr 2 4096} ∧
      c.shared.view.proc.intercept.qpCount.toNat = (c.shared.live.filter Object.IsQp).card ∧
      c.shared.view.proc.intercept.mrCount.toNat = (c.shared.live.filter Object.IsMr).card ∧
      c.shared.view.proc.intercept.memoryUsed.toNat = ∑ o ∈ c.shared.live, o.bytes := by
  have hrun : Run (Guarded (fun x a => ∀ counter, NoWrap counter x a) pieceStep)
      (plainThreads Bool) [] (plainThreads Bool) := .start
  have hrun := hrun.snoc (a := (false, Action.checkOwn false ⟨.rc, 1, 1⟩)) ⟨fun _ => trivial, rfl⟩
  have hrun := hrun.snoc (a := (true, Action.checkMr quietEnv 4096)) ⟨fun _ => trivial, rfl⟩
  have hrun := hrun.snoc (a := (false, Action.checkGlobal)) ⟨fun _ => trivial, rfl⟩
  have hrun := hrun.snoc (a := (false, Action.tenantStep quietEnv)) ⟨fun _ => trivial, rfl⟩
  have hrun := hrun.snoc (a := (false, Action.createQp (some 1))) ⟨fun _ => trivial, rfl⟩
  have hrun := hrun.snoc (a := (true, Action.regMr (some 2))) ⟨fun _ => trivial, rfl⟩
  have hrun := hrun.snoc (a := (false, Action.countQp)) (by
    refine ⟨fun counter => ?_, rfl⟩
    cases counter with
    | qp => exact (show 0 + 1 < 2 ^ 32 by decide)
    | mr => exact (show 0 + 0 < 2 ^ 32 by decide)
    | bytes => exact (show 0 + 0 < 2 ^ 64 by decide))
  have hrun := hrun.snoc (a := (true, Action.countMr)) (by
    refine ⟨fun counter => ?_, rfl⟩
    cases counter with
    | qp => exact (show 1 + 0 < 2 ^ 32 by decide)
    | mr => exact (show 0 + 1 < 2 ^ 32 by decide)
    | bytes => exact (show 0 + 4096 < 2 ^ 64 by decide))
  have hrun := hrun.snoc (a := (false, Action.readUsage)) ⟨fun _ => trivial, rfl⟩
  have hrun := hrun.snoc (a := (true, Action.tenantCountMr)) ⟨fun _ => trivial, rfl⟩
  have hrun := hrun.snoc (a := (false, Action.publish quietEnv)) ⟨fun _ => trivial, rfl⟩
  refine ⟨_, _, hrun, ?_, counters_match_objects (plainThreads_start Bool) hrun ?_⟩
  · decide
  · intro i
    cases i <;> rfl

/-- Register an MR of `length` bytes. -/
def registration (mr : Nat) (length : UInt64) : List (Unit × Action) :=
  [((), .checkMr quietEnv length), ((), .regMr (some mr)), ((), .countMr), ((), .tenantCountMr)]

/-- Half of the values of a `size_t`. -/
def halfSpace : UInt64 := 0x8000000000000000

/-- Two MRs of half the address space each: `memory_used` is back at zero. -/
theorem memory_used_wraps : ∃ c,
    ThreadsStart (plainThreads Unit) ∧
      Run (Interleaved pieceStep) (plainThreads Unit)
        (registration 1 halfSpace ++ registration 2 halfSpace) c ∧
      (∀ i, c.control i = .idle) ∧ c.shared.view.proc.intercept.memoryUsed.toNat = 0 ∧
      ∑ o ∈ c.shared.live, o.bytes = 2 ^ 64 := by
  have hmemory : (0 + halfSpace + halfSpace).toNat = 0 := by decide
  refine ⟨_, plainThreads_start Unit, run_of_foldlM rfl, fun _ => rfl, hmemory, ?_⟩
  show ∑ o ∈ ({.mr 2 halfSpace, .mr 1 halfSpace} : Finset Object), o.bytes = 2 ^ 64
  rw [Finset.sum_pair (by decide)]
  decide

end MtRdma.Ports.HookCounters
