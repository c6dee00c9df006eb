import MtRdma.Ports.QpPublication

/-!
# The limits of a process that calls one hook at a time

A process checks `max_qp_per_process` against its own entry, which only a
creation brings up to date.  The entry may therefore be too high, after a
destruction or because an earlier process with the same pid left it behind,
but it is never below the number of QPs the process has been given.  That is
enough for the limit, whatever other processes do to their own entries, in
between calls or in the middle of one.

It is not enough in the other direction: a creation may be denied although
QPs have been given back.
-/

namespace MtRdma.Ports.ProcessLimit

open Verified.MachineInt
open Verified.SlotScan
open Verified.Runs
open Verified.Interleaving
open SharedMemory
open RdmaHooks
open HookPieces
open HookCounters
open QpPublication

/-! ## One process among others -/

/-- A process attached to the segment that controls its QPs, with limit
`m`. -/
structure Controlled (m : Nat) (p : Process) : Prop where
  pid_pos : 0 < p.pid
  shmMapped : p.shmMapped = true
  control : p.intercept.config.enableQpControl = true
  limit : p.intercept.config.maxQpPerProcess.toNat = m

theorem Controlled.of_setup {m : Nat} {p q : Process} (h : Controlled m p)
    (hsame : SameSetup p q) : Controlled m q where
  pid_pos := hsame.pid ▸ h.pid_pos
  shmMapped := hsame.shmMapped.trans h.shmMapped
  control := by
    rw [hsame.config]
    exact h.control
  limit := by
    rw [hsame.config]
    exact h.limit

/-- The steps: a piece of the process's own hook, an update or a clear by
somebody else, or any change to the tenant store. -/
inductive Label where
  | own (a : Action)
  | update (pid : Int) (usage : ResourceUsage) (start : UInt64)
  | clear (slot : Int)
  | tenant

/-- The table as another process leaves it. -/
def withTable (s : Shared) (shm : SharedMemoryData) : Shared :=
  { s with view := { s.view with shm := shm } }

/-- A publication finds an entry or a free slot. -/
def Publishable : Pc × Shared → Action → Prop
  | (.publishing _ _, s), .publish _ => HasRoom s.view.shm s.view.proc.pid
  | _, _ => True

/-- Nobody else writes the entry of the process. -/
inductive ProcessStep : Pc × Shared → Label → Pc × Shared → Prop
  | own {x y : Pc × Shared} {a : Action} (hroom : Publishable x a)
      (hstep : pieceStep x a = some y) : ProcessStep x (.own a) y
  | update {k : Pc} {s : Shared} {pid : Int} {usage : ResourceUsage} {start : UInt64}
      (hne : pid ≠ s.view.proc.pid) :
      ProcessStep (k, s) (.update pid usage start)
        (k, withTable s (shmUpdateProcessResources pid usage start s.view.shm).2)
  | clear {k : Pc} {s : Shared} {slot : Int}
      (hne : ∀ i, slotOf? slot = some i → s.view.shm.processPids i ≠ s.view.proc.pid) :
      ProcessStep (k, s) (.clear slot)
        (k, withTable s (shmClearProcessEntry slot s.view.shm).2)
  | tenant {k : Pc} {s : Shared} {store : SharedMemoryTenant.TenantSharedMemory} :
      ProcessStep (k, s) .tenant (k, { s with view := { s.view with tenant := store } })

/-! ## The invariant -/

/-- The entry is at least the number of QPs the process has been given, and
together with a creation under way these stay within the limit. -/
structure Within (m : Nat) (k : Pc) (s : Shared) : Prop where
  controlled : Controlled m s.view.proc
  wf : TableWf s.view.shm
  balanced : Balanced .qp s (holds k)
  entry : (qps s.returned : Int) ≤ (entryQp s.view.shm s.view.proc.pid).toInt
  within : qps s.returned + inFlight k.stage ≤ m
  checked : k = .checking → qps s.returned + 1 ≤ m
  snapshot : ∀ qp usage, k = .publishing qp usage →
    usage.qpCount.toInt = (qps s.returned + 1 : Nat)

section Invariant

variable {m : Nat} {k k' : Pc} {s s' : Shared} {a : Action}

/-- A creation that passes the first checks leaves room for one more QP. -/
theorem Within.room (h : Within m k s) {extended : Bool} {attr : QpInitAttr}
    (hpass : ownChecks extended attr s.view = true) : qps s.returned + 1 ≤ m := by
  have hlt := entry_lt_of_ownChecks h.controlled.control h.controlled.shmMapped
    h.controlled.pid_pos hpass
  have hentry := h.entry
  have hunsigned := toNat_toUInt32 (x := entryQp s.view.shm s.view.proc.pid) (by omega)
  have hhi := Int32.toInt_lt (entryQp s.view.shm s.view.proc.pid)
  have hnowrap := toNat_add_one32 (x := (entryQp s.view.shm s.view.proc.pid).toUInt32) (by omega)
  rw [UInt32.le_iff_toNat_le, h.controlled.limit, hnowrap] at hlt
  omega

/-- The counter is far from its end. -/
theorem Within.noWrap (h : Within m k s) (hm : m < 2 ^ 31) : NoWrap .qp (k, s) a := by
  apply noWrap_qp
  rintro qp rfl _
  have hcount := qpCount_uncounted h.balanced rfl
  have hwithin := h.within
  simp only [Pc.stage, inFlight] at hwithin
  omega

theorem Within.own (h : Within m k s) (hm : m < 2 ^ 31) (hmoved : Moved k s a k' s')
    (hroom : Publishable (k, s) a) : Within m k' s' := by
  have hbalanced : Balanced .qp s' (holds k') := h.balanced.step_alone hmoved (h.noWrap hm)
  have hcontrolled := h.controlled.of_setup hmoved.setup
  have hpid := hmoved.setup.pid
  cases qpMoved_of_moved hmoved with
  | checkOwn hpass =>
      refine ⟨hcontrolled, h.wf, hbalanced, h.entry, h.within, ?_, nofun⟩
      intro _
      exact h.room hpass
  | checkGlobal hpass =>
      exact ⟨hcontrolled, h.wf, hbalanced, h.entry, h.checked rfl, nofun, nofun⟩
  | @publish _ env qp usage =>
      have hmapped := h.controlled.shmMapped
      have hsnapshot := h.snapshot qp usage rfl
      have hqps : qps (insert (.qp qp) s.returned) = qps s.returned + 1 := qps_publish h.balanced
      have hwithin : qps s.returned + 1 ≤ m := h.within
      refine ⟨hcontrolled, publishUsage_wf hmapped env usage h.wf, hbalanced, ?_, ?_, nofun, nofun⟩
      · show ((qps (insert (.qp qp) s.returned) : Nat) : Int) ≤
          (entryQp (publishUsage env usage s.view).shm
            (publishUsage env usage s.view).proc.pid).toInt
        rw [publishUsage_entry hmapped env usage h.wf h.controlled.pid_pos hroom, hsnapshot, hqps]
      · show qps (insert (.qp qp) s.returned) + 0 ≤ m
        omega
  | other hshm hreturned _ hflight hchecking hsnapshot =>
      have hentry := h.entry
      have hwithin := h.within
      refine ⟨hcontrolled, hshm ▸ h.wf, hbalanced, ?_, ?_, ?_, ?_⟩
      · rw [hshm, hpid]
        omega
      · omega
      · intro hk
        exact absurd hk hchecking
      · intro qp usage hk
        obtain ⟨rfl, rfl, rfl⟩ := hsnapshot qp usage hk
        have hcount := qpCount_counted h.balanced rfl
        simp only [Pc.stage, inFlight] at hwithin
        rw [ownUsage_qpCount (by omega), hcount]

/-- Other processes do not disturb it. -/
theorem Within.of_table (h : Within m k s) {shm : SharedMemoryData} (hwf : TableWf shm)
    (hget : (usageMap shm).get s.view.proc.pid = (usageMap s.view.shm).get s.view.proc.pid) :
    Within m k (withTable s shm) where
  controlled := h.controlled
  wf := hwf
  balanced := h.balanced.of_view rfl
  entry := by
    have hsame : entryQp shm s.view.proc.pid = entryQp s.view.shm s.view.proc.pid :=
      entryQp_of_get hget
    show (qps s.returned : Int) ≤ (entryQp shm s.view.proc.pid).toInt
    rw [hsame]
    exact h.entry
  within := h.within
  checked := h.checked
  snapshot := h.snapshot

/-- **The step lemma.** -/
theorem Within.step {x y : Pc × Shared} {label : Label} (hm : m < 2 ^ 31)
    (h : Within m x.1 x.2) (hstep : ProcessStep x label y) : Within m y.1 y.2 := by
  cases hstep with
  | own hroom hpiece => exact h.own hm (moved_of_step hpiece) hroom
  | update hne =>
      exact h.of_table (h.wf.update _ _ _) (usageMap_update_ne h.wf _ _ hne.symm)
  | clear hne => exact h.of_table (h.wf.clearEntry _) (usageMap_clear_ne h.wf hne)
  | tenant =>
      exact ⟨h.controlled, h.wf, h.balanced.of_view rfl, h.entry, h.within, h.checked, h.snapshot⟩

/-! ## The entry of a process that has created a QP -/

/-- A QP exists and is not returned. -/
def OnTheWay : Stage → Prop
  | .uncounted (.qp _) => True
  | .counted (.qp _) => True
  | _ => False

/-- The process has an entry. -/
def Present (s : Shared) : Prop := ((usageMap s.view.shm).get s.view.proc.pid).isSome

theorem present_publish {env : HookEnv} {qp : Nat} {usage : ResourceUsage}
    (h : Within m (.publishing qp usage) s)
    (hroom : Publishable (.publishing qp usage, s) (.publish env)) :
    Present ({ s with view := publishUsage env usage s.view }.handOver (.qp qp)) := by
  show ((usageMap (publishUsage env usage s.view).shm).get
    (publishUsage env usage s.view).proc.pid).isSome
  rw [publishUsage_proc, publishUsage_shm h.controlled.shmMapped, usageMap_update_self h.wf _ _
    h.controlled.pid_pos ((room_usageMap_iff h.wf h.controlled.pid_pos).mpr hroom)]
  rfl

/-- Once there is an entry, no piece takes it away. -/
theorem Present.own (hpresent : Present s) (h : Within m k s) (hmoved : Moved k s a k' s')
    (hroom : Publishable (k, s) a) : Present s' := by
  have hpid := hmoved.setup.pid
  cases qpMoved_of_moved hmoved with
  | checkOwn | checkGlobal => exact hpresent
  | publish => exact present_publish h hroom
  | other hshm _ _ _ _ _ =>
      unfold Present
      rw [hshm, hpid]
      exact hpresent

/-- A QP on its way ends up published. -/
theorem onTheWay_own (hway : OnTheWay k.stage) (h : Within m k s) (hmoved : Moved k s a k' s')
    (hroom : Publishable (k, s) a) : OnTheWay k'.stage ∨ Present s' := by
  cases hmoved with
  | quiet _ hbefore _ =>
      rcases hbefore with hk | hk | hk
      · rw [hk] at hway
        exact hway.elim
      · rw [hk] at hway
        exact hway.elim
      · rw [hk] at hway
        exact hway.elim
  | countQp | readUsage => exact .inl trivial
  | publish => exact .inr (present_publish h hroom)
  | _ => exact hway.elim

/-- The verb that creates a QP has exactly one place. -/
theorem created_of_createQp {x y : Pc × Shared} {qp : Nat}
    (h : pieceStep x (.createQp (some qp)) = some y) : y.1 = .created qp := by
  obtain ⟨k, s⟩ := x
  cases k with
  | ready tenantOk tenantId =>
      simp only [pieceStep] at h
      split at h
      · cases h
      · obtain rfl := Option.some.inj h
        rfl
  | _ => cases h

/-- A call of the run has created a QP. -/
def Created (labels : List Label) : Prop := ∃ qp, .own (.createQp (some qp)) ∈ labels

/-- What a run has established about the entry. -/
def Published (labels : List Label) (x : Pc × Shared) : Prop :=
  Created labels → OnTheWay x.1.stage ∨ Present x.2

theorem published_step {x y : Pc × Shared} {label : Label} {labels : List Label}
    (h : Within m x.1 x.2) (hpub : Published labels x) (hstep : ProcessStep x label y) :
    Published (labels ++ [label]) y := by
  rintro ⟨qp, hmem⟩
  rcases List.mem_append.mp hmem with hold | hnew
  · have hbefore := hpub ⟨qp, hold⟩
    cases hstep with
    | own hroom hpiece =>
        rcases hbefore with hway | hpresent
        · exact onTheWay_own hway h (moved_of_step hpiece) hroom
        · exact .inr (hpresent.own h (moved_of_step hpiece) hroom)
    | update hne =>
        refine hbefore.imp id fun hpresent => ?_
        exact (congrArg Option.isSome (usageMap_update_ne h.wf _ _ hne.symm)).trans hpresent
    | clear hne =>
        refine hbefore.imp id fun hpresent => ?_
        exact (congrArg Option.isSome (usageMap_clear_ne h.wf hne)).trans hpresent
    | tenant => exact hbefore
  · obtain rfl := List.mem_singleton.mp hnew
    cases hstep with
    | own _ hpiece =>
        rw [created_of_createQp hpiece]
        exact .inl trivial

end Invariant

/-! ## The limit -/

/-- A process before its first call, in a well-formed table in which an
earlier process with its pid may have left an entry that is not negative. -/
structure ProcessStart (m : Nat) (s : Shared) : Prop where
  controlled : Controlled m s.view.proc
  wf : TableWf s.view.shm
  live : s.live = ∅
  returned : s.returned = ∅
  counter : s.view.proc.intercept.qpCount = 0
  stale : 0 ≤ (entryQp s.view.shm s.view.proc.pid).toInt

theorem ProcessStart.within {m : Nat} {s : Shared} (h : ProcessStart m s) : Within m .idle s where
  controlled := h.controlled
  wf := h.wf
  balanced := by
    constructor
    · rw [h.live, h.returned]
      rfl
    · show s.view.proc.intercept.qpCount.toNat = _
      rw [h.counter, h.returned]
      rfl
  entry := by
    rw [h.returned]
    exact h.stale
  within := by
    rw [h.returned]
    exact Nat.zero_le m
  checked := nofun
  snapshot := nofun

/-- **A sequential process stays within `max_qp_per_process`.**  Whatever other
processes do to their own entries, after every call it has at most `m` QPs, and
if it has created any, its entry records at least as many as it has. -/
theorem process_within_limit {m : Nat} (hm : m < 2 ^ 31) {s₀ s : Shared} {labels : List Label}
    (hstart : ProcessStart m s₀) (hrun : Run ProcessStep (.idle, s₀) labels (.idle, s)) :
    qps s.live ≤ m ∧
      (Created labels → ∃ slot, lookup s.view.shm.processPids s.view.proc.pid = some slot ∧
        (qps s.live : Int) ≤ (s.view.shm.processStats slot).qpCount.toInt) := by
  have hinv : Within m Pc.idle s ∧ Published labels (.idle, s) := by
    refine Run.history (P := fun labels x => Within m x.1 x.2 ∧ Published labels x) ?_ ?_ hrun
    · exact ⟨hstart.within, fun ⟨_, hmem⟩ => by cases hmem⟩
    · rintro labels label x y ⟨h, hpub⟩ hstep
      exact ⟨h.step hm hstep, published_step h hpub hstep⟩
  obtain ⟨h, hpub⟩ := hinv
  have hlive : qps s.live ≤ qps s.returned := qps_live_le h.balanced
  constructor
  · exact Nat.le_trans hlive h.within
  · intro hcreated
    have hget : (usageMap s.view.shm).get s.view.proc.pid =
        (lookup s.view.shm.processPids s.view.proc.pid).map s.view.shm.processStats :=
      Verified.BoundedMap.get_ofSlots h.controlled.pid_pos.ne'
    have hentry := h.entry
    rcases hpub hcreated with hway | hpresent
    · exact hway.elim
    · have hpresent : ((usageMap s.view.shm).get s.view.proc.pid).isSome := hpresent
      unfold entryQp at hentry
      rw [hget] at hpresent hentry
      cases hl : lookup s.view.shm.processPids s.view.proc.pid with
      | none =>
          rw [hl] at hpresent
          cases hpresent
      | some slot =>
          rw [hl] at hentry
          refine ⟨slot, rfl, ?_⟩
          have hrecorded : (qps s.returned : Int) ≤
              (s.view.shm.processStats slot).qpCount.toInt := hentry
          omega

/-- A process with QP control and the two limits. -/
def limitedProcess (pid : Int) (maxQp maxGlobal : UInt32) : Process :=
  { plainProcess pid with
    intercept := ⟨true,
      { InterceptConfig.default with
        enableQpControl := true
        maxQpPerProcess := maxQp
        maxGlobalQp := maxGlobal },
      0, 0, 0⟩ }

/-- Such a process in an empty segment. -/
def limitedShared (maxQp maxGlobal : UInt32) : Shared :=
  ⟨⟨limitedProcess 100 maxQp maxGlobal, SharedMemory.zeroed, SharedMemoryTenant.zeroed⟩, ∅, ∅⟩

theorem limitedShared_start (maxQp maxGlobal : UInt32) :
    ProcessStart maxQp.toNat (limitedShared maxQp maxGlobal) where
  controlled := ⟨show (0 : Int) < 100 by decide, rfl, rfl, rfl⟩
  wf := TableWf.zeroed
  live := rfl
  returned := rfl
  counter := rfl
  stale := by
    show 0 ≤ (entryQp SharedMemory.zeroed 100).toInt
    rw [entryQp_zeroed]
    decide

/-- The attributes of an ordinary QP. -/
def plainAttr : QpInitAttr := ⟨.rc, 1, 1⟩

/-- In an empty segment with a limit of one QP, the first one is let
through. -/
theorem first_checks : ownChecks false plainAttr (limitedShared 1 1).view = true ∧
    globalCheck (limitedShared 1 1).view = true := by
  constructor
  · have hentry : entryQp (limitedShared 1 1).view.shm (limitedShared 1 1).view.proc.pid = 0 :=
      entryQp_zeroed 100
    rw [ownChecks_eq rfl rfl (by decide), hentry]
    decide
  · rw [globalCheck_eq rfl rfl]
    decide

/-- A limit of one QP: the process creates QP 7, and another process publishes
its own usage. -/
theorem one_qp_within_limit : ∃ labels s,
    ProcessStart 1 (limitedShared 1 1) ∧
      Run ProcessStep (.idle, limitedShared 1 1) labels (.idle, s) ∧ s.live = {.qp 7} ∧
      qps s.live ≤ 1 ∧ ∃ slot, lookup s.view.shm.processPids s.view.proc.pid = some slot ∧
        (qps s.live : Int) ≤ (s.view.shm.processStats slot).qpCount.toInt := by
  have hchecks := first_checks
  have hrun : Run ProcessStep (.idle, limitedShared 1 1) [] (.idle, limitedShared 1 1) := .start
  have hown : ProcessStep (.idle, limitedShared 1 1) (.own (.checkOwn false plainAttr))
      (.checking, limitedShared 1 1) := .own (by trivial) (by simp [pieceStep, hchecks.1])
  have hglobal : ProcessStep (.checking, limitedShared 1 1) (.own .checkGlobal)
      (.permitted, limitedShared 1 1) := .own (by trivial) (by simp [pieceStep, hchecks.2])
  have hrun := (hrun.snoc hown).snoc hglobal
  have hrun := hrun.snoc (a := .own (.tenantStep quietEnv)) (.own (by trivial) rfl)
  have hrun := hrun.snoc (a := .own (.createQp (some 7))) (.own (by trivial) rfl)
  have hrun := hrun.snoc (a := .own .countQp) (.own (by trivial) rfl)
  have hrun := hrun.snoc (a := .own .readUsage) (.own (by trivial) rfl)
  have hrun := hrun.snoc (a := .own (.publish quietEnv)) (.own (by exact hasRoom_zeroed 100) rfl)
  have hrun := hrun.snoc (a := .update 200 ⟨3, 0, 0⟩ 0) (.update (by decide))
  obtain ⟨hlimit, hentry⟩ := process_within_limit (by decide) (limitedShared_start 1 1) hrun
  exact ⟨_, _, limitedShared_start 1 1, hrun, rfl, hlimit, hentry ⟨7, by simp⟩⟩

/-! ## A process alone in the segment -/

/-- A process with both limits, initialized and enabled. -/
structure Limited (m g : UInt32) (p : Process) : Prop where
  controlled : Controlled m.toNat p
  maxGlobal : p.intercept.config.maxGlobalQp = g
  hooksInit : p.hooksInit = true
  enabled : rdmaInterceptIsEnabled p = true
  createQp : p.realVerbs.createQp = true
  destroyQp : p.realVerbs.destroyQp = true

theorem Limited.of_setup {m g : UInt32} {p q : Process} (h : Limited m g p)
    (hsame : SameSetup p q) : Limited m g q where
  controlled := h.controlled.of_setup hsame
  maxGlobal := by
    rw [hsame.config]
    exact h.maxGlobal
  hooksInit := hsame.hooksInit.trans h.hooksInit
  enabled := by
    unfold rdmaInterceptIsEnabled
    rw [hsame.config, hsame.initialized]
    exact h.enabled
  createQp := by
    rw [hsame.realVerbs]
    exact h.createQp
  destroyQp := by
    rw [hsame.realVerbs]
    exact h.destroyQp

/-- The process is the only one with an entry, and the total is what its entry
records. -/
structure Sole (m g : UInt32) (v : View) : Prop where
  limited : Limited m g v.proc
  wf : TableWf v.shm
  others : ∀ q, q ≠ v.proc.pid → (usageMap v.shm).get q = none
  total : v.shm.globalStats.qpCount = entryQp v.shm v.proc.pid

/-- A process without company finds room. -/
theorem hasRoom_of_others {s : SharedMemoryData} {pid : Int}
    (h : ∀ q, q ≠ pid → (usageMap s).get q = none) : HasRoom s pid := by
  cases hpid : lookup s.processPids pid with
  | some slot => exact .inl (by rw [hpid]; rfl)
  | none =>
      right
      have hfree : s.processPids 0 = 0 := by
        by_contra hne
        have hother : s.processPids 0 ≠ pid := by
          rintro heq
          rw [lookup_first heq] at hpid
          cases hpid
        have hget : (usageMap s).get (s.processPids 0) =
            (lookup s.processPids (s.processPids 0)).map s.processStats :=
          Verified.BoundedMap.get_ofSlots hne
        rw [h _ hother, lookup_first rfl] at hget
        cases hget
      rw [lookup_first hfree]
      rfl

theorem Sole.publish {m g : UInt32} {v : View} (h : Sole m g v) (env : HookEnv)
    (usage : ResourceUsage) : Sole m g (publishUsage env usage v) := by
  have hpos := h.limited.controlled.pid_pos
  have hroom := hasRoom_of_others h.others
  have hmapped := h.limited.controlled.shmMapped
  have hproc := publishUsage_proc env usage v
  have hshm := publishUsage_shm hmapped env usage
  refine ⟨?_, publishUsage_wf hmapped env usage h.wf, ?_, ?_⟩
  · rw [hproc]
    exact h.limited
  · intro q hq
    rw [hproc] at hq
    rw [hshm, usageMap_update_ne h.wf _ _ hq]
    exact h.others q hq
  · rw [publishUsage_entry hmapped env usage h.wf hpos hroom, hshm,
      globalQp_update_entry h.wf _ _ hpos hroom, h.total]
    grind

/-- **Every piece keeps the total equal to the entry.** -/
theorem Sole.piece {m g : UInt32} {x y : Pc × Shared} {a : Action} (h : Sole m g x.2.view)
    (hstep : pieceStep x a = some y) : Sole m g y.2.view := by
  have hmoved := moved_of_step hstep
  have hlimited := h.limited.of_setup hmoved.setup
  have hpid := hmoved.setup.pid
  generalize y.1 = k' at hmoved
  generalize y.2 = s' at hmoved hlimited hpid ⊢
  generalize x.1 = k at hmoved
  generalize x.2 = s at hmoved hlimited hpid h
  cases qpMoved_of_moved hmoved with
  | checkOwn | checkGlobal => exact h
  | publish => exact h.publish _ _
  | other hshm _ _ _ _ _ =>
      refine ⟨hlimited, hshm ▸ h.wf, ?_, ?_⟩
      · intro q hq
        rw [hpid] at hq
        rw [hshm]
        exact h.others q hq
      · rw [hshm, hpid]
        exact h.total

/-! ## Whole calls -/

/-- A call of the process: a creation with the answers of the real verb, or a
destruction whose verb succeeds. -/
inductive Call where
  | create (env : HookEnv) (real : QpInitAttr → Option Nat) (attr : QpInitAttr)
  | destroy (env : HookEnv) (qp : Nat)

/-- The real verb answers with a new QP; a QP is destroyed after its creating
call has returned it. -/
def Call.Possible (s : Shared) : Call → Prop
  | .create _ real _ => ∀ attr qp, real attr = some qp → .qp qp ∉ s.live
  | .destroy _ qp => .qp qp ∈ s.returned

def Call.exec (s : Shared) : Call → Shared
  | .create env real attr =>
      let r := ibvCreateQp env real attr s.view
      { s with view := r.2 }.settle (r.1.qp.map .qp)
  | .destroy env qp => { s with view := (ibvDestroyQp env 0 s.view).2 }.destroy (.qp qp)

def CallStep (s : Shared) (call : Call) (s' : Shared) : Prop :=
  call.Possible s ∧ s' = call.exec s

/-- A call is some of its pieces, one after the other. -/
theorem call_alone {m g : UInt32} {s : Shared} {call : Call} (h : Sole m g s.view)
    (hpossible : call.Possible s) : Alone pieceStep (.idle, s) (.idle, call.exec s) := by
  have hinit : ∀ env, hooksInitOnce env s.view = s.view :=
    fun env => hooksInitOnce_of_init env h.limited.hooksInit
  have henabled : ∀ env, rdmaInterceptIsEnabled (hooksInitOnce env s.view).proc = true := by
    intro env
    rw [hinit]
    exact h.limited.enabled
  cases call with
  | create env real attr =>
      have halone := ibvCreateQp_alone real attr s.returned (henabled env) hpossible
      rw [hinit] at halone
      exact halone
  | destroy env qp =>
      have hfound : (hooksInitOnce env s.view).proc.realVerbs.destroyQp = true := by
        rw [hinit]
        exact h.limited.destroyQp
      have halone := ibvDestroyQp_alone s.live (henabled env) hfound hpossible
      rw [hinit] at halone
      exact halone

/-- The run lemma. -/
theorem sole_run {m g : UInt32} {s₀ s : Shared} {calls : List Call} (h₀ : Sole m g s₀.view)
    (hrun : Run CallStep s₀ calls s) : Sole m g s.view := by
  refine Run.invariant (P := fun s => Sole m g s.view) h₀ ?_ hrun
  rintro s call s' h ⟨hpossible, rfl⟩
  exact (call_alone h hpossible).invariant (P := fun x => Sole m g x.2.view)
    (fun _ _ _ hx hstep => hx.piece hstep) h

/-- For allowed attributes, a process alone in the segment is denied a QP
exactly when its entry has reached one of its limits. -/
theorem denied_iff {m g : UInt32} {v : View} (h : Sole m g v) {attr : QpInitAttr}
    (htype : qpTypeAllowed v.proc.intercept.config attr.qpType = true)
    (hsend : attr.maxSendWr ≤ v.proc.intercept.config.maxSendWrLimit)
    (hrecv : attr.maxRecvWr ≤ v.proc.intercept.config.maxRecvWrLimit) :
    checkQpCreationRestrictions attr v = false ↔
      min m.toNat g.toNat ≤ (entryQp v.shm v.proc.pid).toUInt32.toNat := by
  have hcontrolled := h.limited.controlled
  have hpass : checkQpCreationRestrictions attr v = true ↔
      (entryQp v.shm v.proc.pid).toUInt32 + 1 ≤ v.proc.intercept.config.maxQpPerProcess ∧
        (entryQp v.shm v.proc.pid).toUInt32 < g := by
    rw [checkQpCreationRestrictions_eq, globalCheck_eq hcontrolled.control hcontrolled.shmMapped,
      ownChecks_eq hcontrolled.control hcontrolled.shmMapped hcontrolled.pid_pos, h.total,
      h.limited.maxGlobal]
    simp [htype, hsend, hrecv]
  rw [← Bool.not_eq_true, hpass, UInt32.le_iff_toNat_le, UInt32.lt_iff_toNat_lt,
    hcontrolled.limit]
  generalize (entryQp v.shm v.proc.pid).toUInt32 = entry
  have hadd : (entry + 1).toNat = (entry.toNat + 1) % 2 ^ 32 := UInt32.toNat_add entry 1
  have hentry := UInt32.toNat_lt entry
  have hg := UInt32.toNat_lt g
  omega

/-- The entry of the process records the number of QPs that exist. -/
def EntryCurrent (s : Shared) : Prop :=
  (entryQp s.view.shm s.view.proc.pid).toUInt32.toNat = qps s.live

/-- **A process alone in the segment is denied a QP only at its limit**, at
every check at which its entry is current. -/
theorem denied_only_at_limit {m g : UInt32} {s₀ s : Shared} {calls : List Call}
    (hstart : Sole m g s₀.view) (hrun : Run CallStep s₀ calls s) (hcurrent : EntryCurrent s)
    {attr : QpInitAttr}
    (htype : qpTypeAllowed s.view.proc.intercept.config attr.qpType = true)
    (hsend : attr.maxSendWr ≤ s.view.proc.intercept.config.maxSendWrLimit)
    (hrecv : attr.maxRecvWr ≤ s.view.proc.intercept.config.maxRecvWrLimit)
    (hdenied : checkQpCreationRestrictions attr s.view = false) :
    min m.toNat g.toNat ≤ qps s.live := by
  rw [← hcurrent]
  exact (denied_iff (sole_run hstart hrun) htype hsend hrecv).mp hdenied

theorem limitedShared_sole (m g : UInt32) : Sole m g (limitedShared m g).view where
  limited := ⟨(limitedShared_start m g).controlled, rfl, rfl, rfl, rfl, rfl⟩
  wf := TableWf.zeroed
  others := by
    intro q _
    show (usageMap SharedMemory.zeroed).get q = none
    rw [usageMap_zeroed]
    rfl
  total := (entryQp_zeroed 100).symm

/-- Create QP 7. -/
def create7 : Call := .create quietEnv (fun _ => some 7) plainAttr

/-- Destroy it. -/
def destroy7 : Call := .destroy quietEnv 7

/-- The process with limits of one after QP 7 was created. -/
def created7 : Shared :=
  { limitedShared 1 1 with
    view := publishUsage quietEnv ⟨1, 0, 0⟩
      { (limitedShared 1 1).view with proc := countOwnQp (limitedProcess 100 1 1) } }.settle
    (some (.qp 7))

theorem create7_exec : create7.exec (limitedShared 1 1) = created7 := by
  have hcheck : checkQpCreationRestrictions plainAttr (limitedShared 1 1).view = true := by
    rw [checkQpCreationRestrictions_eq, first_checks.1, first_checks.2]
    rfl
  have hcreate : ibvCreateQp quietEnv (fun _ => some 7) plainAttr (limitedShared 1 1).view =
      createForTenant quietEnv (fun _ => some 7) plainAttr (limitedShared 1 1).view := by
    unfold ibvCreateQp
    simp only [show hooksInitOnce quietEnv (limitedShared 1 1).view = (limitedShared 1 1).view
      from rfl, hcheck]
    rfl
  unfold create7 Call.exec
  simp only [hcreate]
  rfl

theorem create7_run : Run CallStep (limitedShared 1 1) [create7] created7 := by
  have hpossible : create7.Possible (limitedShared 1 1) := fun _ _ _ => Finset.notMem_empty _
  exact Run.start.snoc ⟨hpossible, create7_exec.symm⟩

/-- What QP 7 leaves in the table. -/
theorem created7_entry : entryQp created7.view.shm 100 = 1 := by
  have hshm : created7.view.shm = (shmUpdateProcessResources 100 ⟨1, 0, 0⟩ 0
      SharedMemory.zeroed).2 := rfl
  rw [hshm, entryQp_update_self TableWf.zeroed _ _ (by decide) (hasRoom_zeroed 100)]

theorem created7_denied : checkQpCreationRestrictions plainAttr created7.view = false := by
  rw [denied_iff (sole_run (limitedShared_sole 1 1) create7_run) rfl (by decide) (by decide),
    show created7.view.proc.pid = 100 from rfl, created7_entry]
  decide

/-- With limits of one, a second QP is denied while the first exists. -/
theorem denied_while_qp_exists :
    EntryCurrent created7 ∧ checkQpCreationRestrictions plainAttr created7.view = false ∧
      min (1 : UInt32).toNat (1 : UInt32).toNat ≤ qps created7.live := by
  have hcurrent : EntryCurrent created7 := by
    unfold EntryCurrent
    rw [show created7.view.proc.pid = 100 from rfl, created7_entry]
    rfl
  exact ⟨hcurrent, created7_denied, denied_only_at_limit (limitedShared_sole 1 1) create7_run
    hcurrent rfl (by decide) (by decide) created7_denied⟩

/-- Still with limits of one: after QP 7 was destroyed a creation is denied,
although there is no QP. -/
theorem denied_without_qp : ∃ s,
    Sole 1 1 (limitedShared 1 1).view ∧
      Run CallStep (limitedShared 1 1) [create7, destroy7] s ∧
      checkQpCreationRestrictions plainAttr s.view = false ∧ qps s.live = 0 := by
  have hpossible : destroy7.Possible created7 := Finset.mem_insert_self _ _
  have hrun : Run CallStep (limitedShared 1 1) ([create7] ++ [destroy7]) (destroy7.exec created7) :=
    create7_run.snoc ⟨hpossible, rfl⟩
  refine ⟨_, limitedShared_sole 1 1, hrun, ?_, rfl⟩
  have hshm : (destroy7.exec created7).view.shm = created7.view.shm := rfl
  rw [denied_iff (sole_run (limitedShared_sole 1 1) hrun) rfl (by decide) (by decide), hshm,
    show (destroy7.exec created7).view.proc.pid = 100 from rfl, created7_entry]
  decide

end MtRdma.Ports.ProcessLimit
