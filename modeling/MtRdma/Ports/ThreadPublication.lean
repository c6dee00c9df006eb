import MtRdma.Ports.ProcessLimit

/-!
# Publications of several threads

A creating hook counts its QP under `resource_mutex`, copies the counter after
it has released the mutex, and writes the copy to the process table later
still.  A thread that is held up in between overwrites the entry with an old
count, although a newer one is there.

While no thread does that, the last count is never lost: as long as the entry
is behind the counter, some thread has yet to copy the counter, or holds a
copy of its current value.
-/

namespace MtRdma.Ports.ThreadPublication

open Verified.Runs
open Verified.Interleaving
open SharedMemory
open RdmaHooks
open HookPieces
open HookCounters
open QpPublication
open ProcessLimit

/-- The QP counter of the process, and what the table records of it. -/
def counter (s : Shared) : Nat := s.view.proc.intercept.qpCount.toNat

def recorded (s : Shared) : Int := (entryQp s.view.shm s.view.proc.pid).toInt

/-- QPs are created and not destroyed, fewer than an `int` can count; a
publication finds an entry or a free slot, and is not older than what the
entry records. -/
def InOrder (x : Pc × Shared) : Action → Prop
  | .destroyQp _ => False
  | .uncountQp => False
  | .countQp => counter x.2 + 1 < 2 ^ 31
  | .publish _ => HasRoom x.2.view.shm x.2.view.proc.pid ∧
      ∀ qp usage, x.1 = .publishing qp usage → recorded x.2 ≤ usage.qpCount.toInt
  | _ => True

/-! ## The invariant -/

/-- The thread will publish the current count: it has yet to copy it, or holds
a copy of it. -/
def Latest (n : Nat) (k : Pc) : Prop :=
  (∃ qp, k = .counted qp) ∨ ∃ qp usage, k = .publishing qp usage ∧ usage.qpCount.toInt = n

structure NotLost {ι : Type} (c : Config ι Pc Shared) : Prop where
  pid_pos : 0 < c.shared.view.proc.pid
  shmMapped : c.shared.view.proc.shmMapped = true
  wf : TableWf c.shared.view.shm
  small : counter c.shared < 2 ^ 31
  copies : ∀ i qp usage, c.control i = .publishing qp usage →
    usage.qpCount.toInt ≤ counter c.shared
  latest : recorded c.shared = counter c.shared ∨ ∃ i, Latest (counter c.shared) (c.control i)

section Invariant

variable {ι : Type} [DecidableEq ι] {c : Config ι Pc Shared} {i : ι} {k' : Pc} {s' : Shared}

/-- After a step of thread `i`, a thread about to publish is `i` itself or was
about to publish before. -/
theorem publishing_of_update {control : ι → Pc} {j : ι} {qp : Nat} {usage : ResourceUsage}
    (h : Function.update control i k' j = .publishing qp usage) :
    k' = .publishing qp usage ∨ control j = .publishing qp usage := by
  by_cases hji : j = i
  · subst hji
    rw [Function.update_self] at h
    exact .inl h
  · rw [Function.update_of_ne hji] at h
    exact .inr h

/-- A step of a thread that is not the latest leaves the latest where it
was. -/
theorem latest_update {control : ι → Pc} {n : Nat} (h : ∃ j, Latest n (control j))
    (hi : ¬Latest n (control i)) (k' : Pc) : ∃ j, Latest n (Function.update control i k' j) := by
  obtain ⟨j, hj⟩ := h
  have hji : j ≠ i := by
    rintro rfl
    exact hi hj
  refine ⟨j, ?_⟩
  rw [Function.update_of_ne hji]
  exact hj

/-- A step that neither moves the counter nor the table, by a thread that has
nothing to publish. -/
theorem NotLost.aside (h : NotLost c) (hsetup : SameSetup c.shared.view.proc s'.view.proc)
    (hcounter : counter s' = counter c.shared) (hshm : s'.view.shm = c.shared.view.shm)
    (hbefore : ∀ n, ¬Latest n (c.control i)) (hafter : ∀ qp usage, k' ≠ .publishing qp usage) :
    NotLost ⟨s', Function.update c.control i k'⟩ where
  pid_pos := hsetup.pid ▸ h.pid_pos
  shmMapped := hsetup.shmMapped.trans h.shmMapped
  wf := hshm ▸ h.wf
  small := hcounter ▸ h.small
  copies := by
    intro j qp usage hj
    show usage.qpCount.toInt ≤ counter s'
    rw [hcounter]
    rcases publishing_of_update hj with hown | hold
    · exact absurd hown (hafter qp usage)
    · exact h.copies j qp usage hold
  latest := by
    have hrecorded : recorded s' = recorded c.shared := by
      unfold recorded
      rw [hshm, hsetup.pid]
    show recorded s' = counter s' ∨ ∃ j, Latest (counter s') (Function.update c.control i k' j)
    rw [hrecorded, hcounter]
    exact h.latest.imp id fun hlatest => latest_update hlatest (hbefore _) k'

/-- The count makes its own thread the one to publish. -/
theorem NotLost.count (h : NotLost c) (qp : Nat) (hbound : counter c.shared + 1 < 2 ^ 31) :
    NotLost ⟨{ c.shared with
        view := { c.shared.view with proc := countOwnQp c.shared.view.proc } },
      Function.update c.control i (.counted qp)⟩ := by
  have hcounter : (countOwnQp c.shared.view.proc).intercept.qpCount.toNat =
      counter c.shared + 1 := value_countOwnQp (c := .qp) qp (Nat.lt_trans hbound (by decide))
  refine ⟨h.pid_pos, h.shmMapped, h.wf, ?_, ?_, ?_⟩
  · show (countOwnQp c.shared.view.proc).intercept.qpCount.toNat < 2 ^ 31
    omega
  · intro j qp' usage hj
    show usage.qpCount.toInt ≤ ((countOwnQp c.shared.view.proc).intercept.qpCount.toNat : Int)
    rcases publishing_of_update hj with hown | hold
    · cases hown
    · have hcopy := h.copies j qp' usage hold
      omega
  · refine .inr ⟨i, .inl ⟨qp, ?_⟩⟩
    exact Function.update_self i (Pc.counted qp) c.control

/-- The copy is one of the current count. -/
theorem NotLost.read (h : NotLost c) (qp : Nat) :
    NotLost ⟨c.shared, Function.update c.control i
      (.publishing qp (ownUsage c.shared.view.proc))⟩ := by
  have hcopy : (ownUsage c.shared.view.proc).qpCount.toInt = counter c.shared :=
    ownUsage_qpCount h.small
  refine ⟨h.pid_pos, h.shmMapped, h.wf, h.small, ?_, ?_⟩
  · intro j qp' usage hj
    rcases publishing_of_update hj with hown | hold
    · obtain ⟨rfl, rfl⟩ := Pc.publishing.inj hown
      exact hcopy.le
    · exact h.copies j qp' usage hold
  · refine .inr ⟨i, .inr ⟨qp, _, ?_, hcopy⟩⟩
    exact Function.update_self i _ c.control

/-- A publication that is not older than the entry brings it up to the
counter, or leaves somebody else to do so. -/
theorem NotLost.publish (h : NotLost c) {qp : Nat} {usage : ResourceUsage} (env : HookEnv)
    (hk : c.control i = .publishing qp usage)
    (hroom : HasRoom c.shared.view.shm c.shared.view.proc.pid)
    (hnewer : recorded c.shared ≤ usage.qpCount.toInt) :
    NotLost ⟨{ c.shared with view := publishUsage env usage c.shared.view }.handOver (.qp qp),
      Function.update c.control i .idle⟩ := by
  have hcopy := h.copies i qp usage hk
  -- the new view, of which only the table is new
  have hproc := publishUsage_proc env usage c.shared.view
  have hwf := publishUsage_wf h.shmMapped env usage h.wf
  have hentry := publishUsage_entry h.shmMapped env usage h.wf h.pid_pos hroom
  generalize publishUsage env usage c.shared.view = v at hproc hwf hentry ⊢
  have hcounter : counter (Shared.handOver { c.shared with view := v } (.qp qp)) =
      counter c.shared := by
    show v.proc.intercept.qpCount.toNat = _
    rw [hproc]
    rfl
  have hrecorded : recorded (Shared.handOver { c.shared with view := v } (.qp qp)) =
      usage.qpCount.toInt := congrArg Int32.toInt hentry
  refine ⟨?_, ?_, hwf, ?_, ?_, ?_⟩
  · show 0 < v.proc.pid
    rw [hproc]
    exact h.pid_pos
  · show v.proc.shmMapped = true
    rw [hproc]
    exact h.shmMapped
  · rw [hcounter]
    exact h.small
  · intro j qp' usage' hj
    rw [hcounter]
    rcases publishing_of_update hj with hown | hold
    · cases hown
    · exact h.copies j qp' usage' hold
  · rw [hcounter, hrecorded]
    by_cases hcurrent : usage.qpCount.toInt = counter c.shared
    · exact .inl hcurrent
    · -- an older copy: the entry was behind as well, and another thread is the latest
      have hnot : ¬Latest (counter c.shared) (c.control i) := by
        rintro (⟨qp', hcounted⟩ | ⟨qp', usage', hpub, hval⟩)
        · rw [hk] at hcounted
          cases hcounted
        · rw [hk] at hpub
          obtain ⟨rfl, rfl⟩ := Pc.publishing.inj hpub
          exact hcurrent hval
      rcases h.latest with heq | hlatest
      · omega
      · exact .inr (latest_update hlatest hnot .idle)

theorem not_latest {n : Nat} {k : Pc} (hcounted : ∀ qp, k ≠ .counted qp)
    (hpublishing : ∀ qp usage, k ≠ .publishing qp usage) : ¬Latest n k := by
  rintro (⟨qp, hk⟩ | ⟨qp, usage, hk, _⟩)
  · exact hcounted qp hk
  · exact hpublishing qp usage hk

/-- **The step lemma.** -/
theorem NotLost.step {a : Action} (h : NotLost c) (hok : InOrder (c.control i, c.shared) a)
    (hmoved : Moved (c.control i) c.shared a k' s') :
    NotLost ⟨s', Function.update c.control i k'⟩ := by
  have hsetup := hmoved.setup
  generalize hk : c.control i = k at hmoved hok
  generalize hs : c.shared = s at hmoved hok hsetup
  subst hs
  -- a thread at `k` that leaves the counter and the table alone
  have aside : counter s' = counter c.shared → s'.view.shm = c.shared.view.shm →
      (∀ qp, k ≠ .counted qp) → (∀ qp usage, k ≠ .publishing qp usage) →
      (∀ qp usage, k' ≠ .publishing qp usage) → NotLost ⟨s', Function.update c.control i k'⟩ := by
    intro hcounter hshm hcounted hpublishing hafter
    refine h.aside hsetup hcounter hshm ?_ hafter
    intro n
    rw [hk]
    exact not_latest hcounted hpublishing
  cases hmoved with
  | countQp => exact h.count _ hok
  | readUsage => exact h.read _
  | publish => exact h.publish _ hk hok.1 (hok.2 _ _ rfl)
  | destroyQp | uncountQp => exact hok.elim
  | quiet hview hbefore hafter =>
      refine aside ?_ hview.shm ?_ ?_ ?_
      · unfold counter
        rw [hview.intercept]
      · rintro qp rfl
        rcases hbefore with hk | hk | hk <;> cases hk
      · rintro qp usage rfl
        rcases hbefore with hk | hk | hk <;> cases hk
      · rintro qp usage rfl
        rcases hafter with hk | ⟨_, hk⟩ <;> cases hk
  | returnMr hview =>
      refine aside ?_ hview.shm nofun nofun nofun
      exact congrArg (fun usage => usage.qpCount.toNat) hview.intercept
  | checkOwn _ => exact aside rfl rfl nofun nofun nofun
  | checkGlobal _ => exact aside rfl rfl nofun nofun nofun
  | createQp _ => exact aside rfl rfl nofun nofun nofun
  | regMr _ => exact aside rfl rfl nofun nofun nofun
  | countMr => exact aside rfl rfl nofun nofun nofun
  | deregMr _ => exact aside rfl rfl nofun nofun nofun
  | uncountMr => exact aside rfl rfl nofun nofun nofun

end Invariant

/-! ## All calls have returned -/

section Result

variable {ι : Type}

/-- Threads before their first call, and a table that records no QP of their
process. -/
structure PublishStart (c : Config ι Pc Shared) : Prop where
  threads : ThreadsStart c
  pid_pos : 0 < c.shared.view.proc.pid
  shmMapped : c.shared.view.proc.shmMapped = true
  wf : TableWf c.shared.view.shm
  entry : entryQp c.shared.view.shm c.shared.view.proc.pid = 0

theorem PublishStart.notLost {c : Config ι Pc Shared} (h : PublishStart c) : NotLost c := by
  have hcounter : counter c.shared = 0 := h.threads.counters .qp
  refine ⟨h.pid_pos, h.shmMapped, h.wf, ?_, ?_, .inl ?_⟩
  · rw [hcounter]
    decide
  · intro i qp usage hk
    rw [h.threads.idle i] at hk
    cases hk
  · rw [hcounter]
    unfold recorded
    rw [h.entry]
    rfl

variable [Fintype ι] [DecidableEq ι]

/-- **No publication is lost** in an interleaving of creations in which no
publication is older than what the entry records: once all calls have
returned, the entry records the QPs that were created. -/
theorem entry_counts_created_qps {c₀ c : Config ι Pc Shared} {labels : List (ι × Action)}
    (hstart : PublishStart c₀) (hrun : Run (Guarded InOrder pieceStep) c₀ labels c)
    (hidle : ∀ i, c.control i = .idle) :
    (entryQp c.shared.view.shm c.shared.view.proc.pid).toInt = qps c.shared.live := by
  have hkept : NotLost c := by
    refine Run.invariant (P := NotLost) hstart.notLost ?_ hrun
    rintro c ⟨i, a⟩ c' h ⟨hok, hact⟩
    obtain ⟨next, heq, rfl⟩ := Option.map_eq_some_iff.mp hact
    exact h.step hok (moved_of_step heq)
  have hbalanced : Balanced .qp c.shared (tally holds c.control) := by
    refine tally_invariant_guarded (I := Balanced .qp) ?_ (hstart.threads.balanced .qp) hrun
    intro rest k s a k' s' h hok hstep
    refine h.step (moved_of_step hstep) (noWrap_qp ?_)
    rintro qp _ rfl
    have hsmall : counter s + 1 < 2 ^ 31 := hok
    unfold counter at hsmall
    omega
  rw [tally_holds_idle hidle] at hbalanced
  have hcounter : counter c.shared = qps c.shared.live := by
    have hvalue := hbalanced.value_eq
    rw [amount_qp] at hvalue
    exact hvalue
  rcases hkept.latest with heq | ⟨i, hi⟩
  · rw [← hcounter]
    exact heq
  · rw [hidle i] at hi
    exact absurd hi (not_latest nofun nofun)

end Result

theorem plainThreads_publishStart (ι : Type) : PublishStart (plainThreads ι) where
  threads := plainThreads_start ι
  pid_pos := show (0 : Int) < 100 by decide
  shmMapped := rfl
  wf := TableWf.zeroed
  entry := entryQp_zeroed 100

/-- The table after a first publication. -/
def publishedOnce (usage : ResourceUsage) : SharedMemoryData :=
  (shmUpdateProcessResources 100 usage (shmReadProcStartTime quietEnv.stat) SharedMemory.zeroed).2

theorem entryQp_publishedOnce (usage : ResourceUsage) :
    entryQp (publishedOnce usage) 100 = usage.qpCount :=
  entryQp_update_self TableWf.zeroed _ _ (by decide) (hasRoom_zeroed 100)

theorem hasRoom_publishedOnce (usage : ResourceUsage) : HasRoom (publishedOnce usage) 100 := by
  apply hasRoom_of_others
  intro q hq
  show (usageMap (shmUpdateProcessResources 100 usage _ SharedMemory.zeroed).2).get q = none
  rw [usageMap_update_ne TableWf.zeroed _ _ hq, usageMap_zeroed]
  rfl

/-- Two threads create a QP each and copy the counter when both are counted. -/
theorem both_publish_in_order : ∃ labels c,
    Run (Guarded InOrder pieceStep) (plainThreads Bool) labels c ∧
      c.shared.live = {.qp 1, .qp 2} ∧
      (entryQp c.shared.view.shm c.shared.view.proc.pid).toInt = qps c.shared.live := by
  have hrun : Run (Guarded InOrder pieceStep) (plainThreads Bool) [] (plainThreads Bool) := .start
  have hrun := hrun.snoc (a := (false, Action.checkOwn false plainAttr)) ⟨trivial, rfl⟩
  have hrun := hrun.snoc (a := (false, Action.checkGlobal)) ⟨trivial, rfl⟩
  have hrun := hrun.snoc (a := (false, Action.tenantStep quietEnv)) ⟨trivial, rfl⟩
  have hrun := hrun.snoc (a := (false, Action.createQp (some 1))) ⟨trivial, rfl⟩
  have hrun := hrun.snoc (a := (false, Action.countQp)) ⟨show 0 + 1 < 2 ^ 31 by decide, rfl⟩
  have hrun := hrun.snoc (a := (true, Action.checkOwn true plainAttr)) ⟨trivial, rfl⟩
  have hrun := hrun.snoc (a := (true, Action.checkGlobal)) ⟨trivial, rfl⟩
  have hrun := hrun.snoc (a := (true, Action.tenantStep quietEnv)) ⟨trivial, rfl⟩
  have hrun := hrun.snoc (a := (true, Action.createQp (some 2))) ⟨trivial, rfl⟩
  have hrun := hrun.snoc (a := (true, Action.countQp)) ⟨show 1 + 1 < 2 ^ 31 by decide, rfl⟩
  have hrun := hrun.snoc (a := (false, Action.readUsage)) ⟨trivial, rfl⟩
  have hrun := hrun.snoc (a := (true, Action.readUsage)) ⟨trivial, rfl⟩
  have hrun := hrun.snoc (a := (false, Action.publish quietEnv)) (by
    refine ⟨⟨hasRoom_zeroed 100, ?_⟩, rfl⟩
    rintro qp usage ⟨⟩
    show (entryQp SharedMemory.zeroed 100).toInt ≤ 2
    rw [entryQp_zeroed]
    decide)
  have hrun := hrun.snoc (a := (true, Action.publish quietEnv)) (by
    refine ⟨⟨hasRoom_publishedOnce _, ?_⟩, rfl⟩
    rintro qp usage ⟨⟩
    exact le_of_eq (congrArg Int32.toInt (entryQp_publishedOnce ⟨2, 0, 0⟩)))
  refine ⟨_, _, hrun, ?_,
    entry_counts_created_qps (plainThreads_publishStart Bool) hrun (fun i => by cases i <;> rfl)⟩
  decide

/-- The first thread is held up between its copy and its publication, while the
second one counts and publishes. -/
def heldUp : List (Bool × Action) :=
  [(false, .checkOwn false plainAttr), (false, .checkGlobal), (false, .tenantStep quietEnv),
    (false, .createQp (some 1)), (false, .countQp), (false, .readUsage),
    (true, .checkOwn false plainAttr), (true, .checkGlobal), (true, .tenantStep quietEnv),
    (true, .createQp (some 2)), (true, .countQp), (true, .readUsage), (true, .publish quietEnv),
    (false, .publish quietEnv)]

theorem newer_count_overwritten : ∃ c,
    PublishStart (plainThreads Bool) ∧ Run (Interleaved pieceStep) (plainThreads Bool) heldUp c ∧
      (∀ i, c.control i = .idle) ∧
      entryQp c.shared.view.shm c.shared.view.proc.pid = 1 ∧ qps c.shared.live = 2 := by
  refine ⟨_, plainThreads_publishStart Bool, run_of_foldlM rfl, fun i => by cases i <;> rfl, ?_,
    rfl⟩
  exact entryQp_update_self (TableWf.zeroed.update _ _ _) ⟨1, 0, 0⟩ _ (by decide)
    (hasRoom_publishedOnce ⟨2, 0, 0⟩)

end MtRdma.Ports.ThreadPublication
