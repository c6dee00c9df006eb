import MtRdma.Ports.SharedMemoryMap
import MtRdma.Ports.HookCounters

/-!
# QPs and the published count

The limits on QPs are checked against the process table: the entry of the
process for its own limit, the totals for the global one.  A creating hook
reads its counter after the count and writes the entry at its very end, in the
piece in which it returns the QP; a destroying hook does not write it at all.

`QpMoved` says what a piece does to the QPs that a process has been given, to
the creation it has under way, and to the table.
-/

namespace MtRdma.Ports.QpPublication

open Verified.MachineInt
open Verified.SlotScan
open SharedMemory
open RdmaHooks
open HookPieces
open HookCounters

/-! ## Numbers of QPs -/

/-- The number of QPs among the objects. -/
def qps (objects : Finset Object) : Nat := (objects.filter Object.IsQp).card

section Qps

variable {objects : Finset Object}

theorem qps_insert_qp {qp : Nat} (h : .qp qp ∉ objects) :
    qps (insert (.qp qp) objects) = qps objects + 1 := by
  have hmem : .qp qp ∉ objects.filter Object.IsQp := fun hq => h (Finset.mem_filter.mp hq).1
  unfold qps
  rw [Finset.filter_insert, if_pos (show (Object.qp qp).IsQp from trivial),
    Finset.card_insert_of_notMem hmem]

theorem qps_insert_mr (mr : Nat) (length : UInt64) :
    qps (insert (.mr mr length) objects) = qps objects := by
  unfold qps
  rw [Finset.filter_insert, if_neg (show ¬(Object.mr mr length).IsQp from id)]

theorem qps_erase_le (o : Object) : qps (objects.erase o) ≤ qps objects :=
  Finset.card_le_card (Finset.filter_subset_filter _ (Finset.erase_subset o objects))

theorem qps_erase_mr (mr : Nat) (length : UInt64) :
    qps (objects.erase (.mr mr length)) = qps objects := by
  have hnot : .mr mr length ∉ objects.filter Object.IsQp :=
    fun hq => (Finset.mem_filter.mp hq).2
  unfold qps
  rw [Finset.filter_erase, Finset.erase_eq_of_notMem hnot]

end Qps

/-- A QP creation that has passed the checks and is not published: the QP is
still to come, or on its way. -/
def inFlight : Stage → Nat
  | .permitted => 1
  | .uncounted (.qp _) => 1
  | .counted (.qp _) => 1
  | _ => 0

/-! ## The counter -/

section Counter

variable {k : Pc} {s : Shared}

/-- The counter while an object is not counted yet. -/
theorem qpCount_uncounted {o : Object} (h : Balanced .qp s (holds k))
    (hstage : k.stage = .uncounted o) :
    s.view.proc.intercept.qpCount.toNat = qps s.returned := by
  have hcount : s.view.proc.intercept.qpCount.toNat =
      Counter.qp.amount (s.returned.val + holds k .counted + holds k .owed) := h.count
  rw [hcount]
  simp only [holds, hstage, stageHolds, add_zero]
  exact amount_qp s.returned

/-- The counter while a QP is counted and not returned. -/
theorem qpCount_counted {qp : Nat} (h : Balanced .qp s (holds k))
    (hstage : k.stage = .counted (.qp qp)) :
    s.view.proc.intercept.qpCount.toNat = qps s.returned + 1 := by
  have hcount : s.view.proc.intercept.qpCount.toNat =
      Counter.qp.amount (s.returned.val + holds k .counted + holds k .owed) := h.count
  rw [hcount]
  simp only [holds, hstage, stageHolds, add_zero, Counter.amount_add, Counter.amount_singleton]
  rw [amount_qp]
  rfl

/-- The QP that a publication returns is a new one. -/
theorem qps_publish {qp : Nat} {usage : ResourceUsage}
    (h : Balanced .qp s (holds (.publishing qp usage))) :
    qps (insert (.qp qp) s.returned) = qps s.returned + 1 := by
  have hheld : Balanced .qp s (0 + stageHolds (.counted (.qp qp))) := by
    rw [zero_add]
    exact h
  exact qps_insert_qp hheld.notMem_returned

/-- Every existing QP is returned or on its way. -/
theorem qps_live_le (h : Balanced .qp s (holds k)) :
    qps s.live ≤ qps s.returned + inFlight k.stage := by
  have hlive : qps s.live =
      qps s.returned + Counter.qp.amount (holds k .uncounted) +
        Counter.qp.amount (holds k .counted) := by
    show (s.live.filter Object.IsQp).card = (s.returned.filter Object.IsQp).card + _ + _
    rw [← amount_qp, ← amount_qp, h.live, Counter.amount_add, Counter.amount_add]
  rw [hlive]
  unfold holds
  cases hstage : k.stage with
  | uncounted o => cases o <;> exact Nat.le_refl _
  | counted o => cases o <;> exact Nat.le_refl _
  | _ => exact Nat.le_add_right _ _

/-- The counter does not wrap around while it is away from its end. -/
theorem noWrap_qp {a : Action} (h : ∀ qp, k = .created qp → a = .countQp →
    s.view.proc.intercept.qpCount.toNat + 1 < 2 ^ 32) : NoWrap .qp (k, s) a := by
  unfold NoWrap
  split
  · rename_i qp s' heq
    obtain ⟨rfl, rfl⟩ := Prod.mk.inj heq
    exact h qp rfl rfl
  · exact UInt32.toNat_lt _
  · trivial

end Counter

/-! ## The entry -/

/-- The QP count that the table records for a pid, 0 if it has no entry. -/
def entryQp (s : SharedMemoryData) (pid : Int) : Int32 :=
  (((usageMap s).get pid).getD .zero).qpCount

/-- There is an entry of the pid, or a free slot for one. -/
def HasRoom (s : SharedMemoryData) (pid : Int) : Prop :=
  (lookup s.processPids pid).isSome ∨ (lookup s.processPids 0).isSome

section Entry

variable {s : SharedMemoryData} {pid : Int}

theorem entryQp_of_get {s' : SharedMemoryData} (h : (usageMap s').get pid = (usageMap s).get pid) :
    entryQp s' pid = entryQp s pid := by
  unfold entryQp
  rw [h]

theorem entryQp_update_self (hwf : TableWf s) (usage : ResourceUsage) (start : UInt64)
    (hpos : 0 < pid) (hroom : HasRoom s pid) :
    entryQp (shmUpdateProcessResources pid usage start s).2 pid = usage.qpCount := by
  unfold entryQp
  rw [usageMap_update_self hwf usage start hpos ((room_usageMap_iff hwf hpos).mpr hroom)]
  rfl

/-- The total moves by what the entry moves by. -/
theorem globalQp_update_entry (hwf : TableWf s) (usage : ResourceUsage) (start : UInt64)
    (hpos : 0 < pid) (hroom : HasRoom s pid) :
    (shmUpdateProcessResources pid usage start s).2.globalStats.qpCount =
      s.globalStats.qpCount + (usage.qpCount - entryQp s pid) :=
  globalQp_update hwf usage start hpos ((room_usageMap_iff hwf hpos).mpr hroom)

theorem entryQp_zeroed (pid : Int) : entryQp SharedMemory.zeroed pid = 0 := by
  unfold entryQp
  rw [usageMap_zeroed]
  rfl

theorem hasRoom_zeroed (pid : Int) : HasRoom SharedMemory.zeroed pid := by
  right
  rw [lookup_first (show SharedMemory.zeroed.processPids 0 = 0 from rfl)]
  rfl

end Entry

/-- The table once process 100 has published a QP. -/
def oneQp : SharedMemoryData := (shmUpdateProcessResources 100 ⟨1, 0, 0⟩ 0 zeroed).2

theorem oneQp_total : oneQp.globalStats.qpCount = 1 := by
  unfold oneQp
  rw [globalQp_update_entry TableWf.zeroed _ _ (by decide) (hasRoom_zeroed 100), entryQp_zeroed]
  decide

section Publish

variable {v : View} (hmapped : v.proc.shmMapped = true) (env : HookEnv) (usage : ResourceUsage)

include hmapped

/-- What a publication of an attached process does. -/
theorem publishUsage_shm : (publishUsage env usage v).shm =
    (shmUpdateProcessResources v.proc.pid usage (shmReadProcStartTime env.stat) v.shm).2 := by
  unfold publishUsage
  rw [if_pos hmapped]

theorem publishUsage_wf (hwf : TableWf v.shm) : TableWf (publishUsage env usage v).shm := by
  rw [publishUsage_shm hmapped]
  exact hwf.update _ _ _

/-- Afterwards the entry is what was published. -/
theorem publishUsage_entry (hwf : TableWf v.shm) (hpos : 0 < v.proc.pid)
    (hroom : HasRoom v.shm v.proc.pid) :
    entryQp (publishUsage env usage v).shm (publishUsage env usage v).proc.pid =
      usage.qpCount := by
  rw [publishUsage_proc, publishUsage_shm hmapped]
  exact entryQp_update_self hwf usage _ hpos hroom

end Publish

/-- The usage record of a process, while its count is that of an `int`. -/
theorem ownUsage_qpCount {p : Process} (h : p.intercept.qpCount.toNat < 2 ^ 31) :
    (ownUsage p).qpCount.toInt = p.intercept.qpCount.toNat := by
  show p.intercept.qpCount.toInt32.toInt = _
  rw [← Int32.toInt_toBitVec]
  show p.intercept.qpCount.toBitVec.toInt = _
  rw [BitVec.toInt_eq_toNat_of_lt]
  · rfl
  · show 2 * p.intercept.qpCount.toNat < 2 ^ 32
    omega

section Checks

variable {v : View} (hcontrol : v.proc.intercept.config.enableQpControl = true)
  (hmapped : v.proc.shmMapped = true)

include hcontrol hmapped

/-- With QP control on, the first checks of an attached process compare its
entry with its limit. -/
theorem ownChecks_eq (hpos : 0 < v.proc.pid) (extended : Bool) (attr : QpInitAttr) :
    ownChecks extended attr v =
      (qpTypeAllowed v.proc.intercept.config attr.qpType &&
        decide ((entryQp v.shm v.proc.pid).toUInt32 + 1 ≤
          v.proc.intercept.config.maxQpPerProcess) &&
        (extended ||
          (!(v.proc.intercept.config.maxSendWrLimit < attr.maxSendWr) &&
            !(v.proc.intercept.config.maxRecvWrLimit < attr.maxRecvWr)))) := by
  have hlimit : processLimitOk v = decide ((entryQp v.shm v.proc.pid).toUInt32 + 1 ≤
      v.proc.intercept.config.maxQpPerProcess) := by
    unfold processLimitOk
    rw [if_pos hmapped, shmGetProcessResources_eq _ hpos, Bool.eq_iff_iff, decide_eq_true_eq,
      decide_eq_true_eq]
    exact UInt32.not_lt
  unfold ownChecks
  rw [if_neg (by simp [hcontrol]), hlimit]

/-- The last check compares the total with the global limit. -/
theorem globalCheck_eq : globalCheck v =
    decide (v.shm.globalStats.qpCount.toUInt32 < v.proc.intercept.config.maxGlobalQp) := by
  unfold globalCheck globalLimitOk
  rw [if_neg (by simp [hcontrol]), if_pos hmapped]
  simp [shmGetGlobalResources]

theorem entry_lt_of_ownChecks (hpos : 0 < v.proc.pid) {extended : Bool} {attr : QpInitAttr}
    (h : ownChecks extended attr v = true) :
    (entryQp v.shm v.proc.pid).toUInt32 + 1 ≤ v.proc.intercept.config.maxQpPerProcess := by
  rw [ownChecks_eq hcontrol hmapped hpos] at h
  simp only [Bool.and_eq_true, decide_eq_true_eq] at h
  exact h.1.2

end Checks

/-! ## What a piece does to the QPs and the table -/

inductive QpMoved : Pc → Shared → Action → Pc → Shared → Prop
  | checkOwn {s : Shared} {extended : Bool} {attr : QpInitAttr}
      (h : ownChecks extended attr s.view = true) :
      QpMoved .idle s (.checkOwn extended attr) .checking s
  | checkGlobal {s : Shared} (h : globalCheck s.view = true) :
      QpMoved .checking s .checkGlobal .permitted s
  | publish {s : Shared} {env : HookEnv} {qp : Nat} {usage : ResourceUsage} :
      QpMoved (.publishing qp usage) s (.publish env) .idle
        ({ s with view := publishUsage env usage s.view }.handOver (.qp qp))
  | other {k k' : Pc} {s s' : Shared} {a : Action} (hshm : s'.view.shm = s.view.shm)
      (hreturned : qps s'.returned ≤ qps s.returned)
      (hkept : (∀ qp, a ≠ .destroyQp qp) → qps s'.returned = qps s.returned)
      (hflight : inFlight k'.stage ≤ inFlight k.stage) (hchecking : k' ≠ .checking)
      (hsnapshot : ∀ qp usage, k' = .publishing qp usage →
        k = .counted qp ∧ usage = ownUsage s.view.proc ∧ s' = s) :
      QpMoved k s a k' s'

/-- A piece that leaves the returned QPs alone and reads no usage. -/
theorem QpMoved.unreturned {k k' : Pc} {s s' : Shared} {a : Action}
    (hshm : s'.view.shm = s.view.shm) (hreturned : qps s'.returned = qps s.returned)
    (hflight : inFlight k'.stage ≤ inFlight k.stage) (hchecking : k' ≠ .checking)
    (hpublishing : ∀ qp usage, k' ≠ .publishing qp usage) : QpMoved k s a k' s' :=
  .other hshm hreturned.le (fun _ => hreturned) hflight hchecking
    fun qp usage heq => absurd heq (hpublishing qp usage)

theorem qpMoved_of_moved {k k' : Pc} {s s' : Shared} {a : Action} (h : Moved k s a k' s') :
    QpMoved k s a k' s' := by
  cases h with
  | quiet hview hbefore hafter =>
      refine .unreturned hview.shm rfl ?_ ?_ ?_
      · rcases hafter with hout | ⟨hfrom, hto⟩
        · rw [hout]
          exact Nat.zero_le _
        · rw [hfrom, hto]
      · rintro rfl
        rcases hafter with hout | ⟨_, hto⟩
        · cases hout
        · cases hto
      · rintro qp usage rfl
        rcases hafter with hout | ⟨_, hto⟩
        · cases hout
        · cases hto
  | checkOwn hpass => exact .checkOwn hpass
  | checkGlobal hpass => exact .checkGlobal hpass
  | createQp _ => exact .unreturned rfl rfl (Nat.le_refl _) nofun nofun
  | countQp => exact .unreturned rfl rfl (Nat.le_refl _) nofun nofun
  | readUsage =>
      refine .other rfl (Nat.le_refl _) (fun _ => rfl) (Nat.le_refl _) nofun ?_
      intro qp usage heq
      obtain ⟨rfl, rfl⟩ := Pc.publishing.inj heq
      exact ⟨rfl, rfl, rfl⟩
  | publish => exact .publish
  | destroyQp _ =>
      refine .other rfl (qps_erase_le _) ?_ (Nat.le_refl _) nofun nofun
      intro hnot
      exact absurd rfl (hnot _)
  | uncountQp => exact .unreturned rfl rfl (Nat.le_refl _) nofun nofun
  | regMr _ => exact .unreturned rfl rfl (Nat.le_refl _) nofun nofun
  | countMr => exact .unreturned rfl rfl (Nat.le_refl _) nofun nofun
  | returnMr hview =>
      exact .unreturned hview.shm (qps_insert_mr _ _) (Nat.le_refl _) nofun nofun
  | deregMr _ => exact .unreturned rfl (qps_erase_mr _ _) (Nat.le_refl _) nofun nofun
  | uncountMr => exact .unreturned rfl rfl (Nat.le_refl _) nofun nofun

end MtRdma.Ports.QpPublication
