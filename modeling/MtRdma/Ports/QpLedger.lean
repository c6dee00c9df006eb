import MtRdma.Verified.MachineInt
import MtRdma.Ports.HookSpec

/-!
# The QP count of one ledger

`QpExact l n` says that the ledger of an ACTIVE tenant counts exactly `n` QPs,
under a quota that an `int` can count up to.  Each rewrite of the usage record
that the hooks perform moves this count by what its name says; the clamps of
the source never fire.
-/

namespace MtRdma.Ports.RdmaHooks

open Verified.MachineInt
open SharedMemoryTenant

/-- The ledger of an ACTIVE tenant counts `n` QPs. -/
structure QpExact (l : Ledger) (n : Nat) : Prop where
  active : l.status = .active
  quota : l.quota.maxQpPerTenant.toNat ≤ 2 ^ 31 - 1
  qp : l.usage.qpCount.toInt = n

/-- A count that is not negative is not clamped. -/
theorem clampQp_of_nonneg {u : TenantResourceUsage} (h : 0 ≤ u.qpCount.toInt) :
    clampQp u = u := by
  unfold clampQp
  rw [if_neg]
  intro hneg
  have hlt : u.qpCount.toInt < 0 := Int32.lt_iff_toInt_lt.mp hneg
  omega

namespace QpExact

variable {l l' : Ledger} {n : Nat}

theorem clampQp (h : QpExact l n) : clampQp l.usage = l.usage :=
  clampQp_of_nonneg (by rw [h.qp]; omega)

/-- The quota test of the reservation compares the true count. -/
theorem lt_quota (h : QpExact l n)
    (hquota : ¬l.quota.maxQpPerTenant ≤ l.usage.qpCount.toUInt32) :
    n < l.quota.maxQpPerTenant.toNat := by
  have hlt : l.usage.qpCount.toUInt32.toNat < l.quota.maxQpPerTenant.toNat := by
    rw [UInt32.le_iff_toNat_le] at hquota
    omega
  have hval := toNat_toUInt32 (x := l.usage.qpCount) (by rw [h.qp]; omega)
  rw [h.qp] at hval
  omega

/-- A reservation counts one more QP. -/
theorem reserve (h : QpExact l n) (hlt : n < l.quota.maxQpPerTenant.toNat) :
    QpExact (withUsage l (reserveQp l.usage)) (n + 1) := by
  have hroom := h.quota
  have hqp : (l.usage.qpCount + 1).toInt = l.usage.qpCount.toInt + 1 :=
    toInt_add_one (by rw [h.qp]; omega)
  refine ⟨h.active, h.quota, ?_⟩
  show (l.usage.qpCount + 1).toInt = ((n + 1 : Nat) : Int)
  rw [hqp, h.qp]
  omega

/-- The roll-back of a reservation counts one less. -/
theorem rollback (h : QpExact l n) (hpos : 1 ≤ n) :
    QpExact (withUsage l (rollbackQp l.usage)) (n - 1) := by
  have hqp : (l.usage.qpCount - 1).toInt = l.usage.qpCount.toInt - 1 :=
    toInt_sub_one (by rw [h.qp]; omega)
  have hgt : 0 < l.usage.qpCount := by
    rw [Int32.lt_iff_toInt_lt, h.qp]
    show (0 : Int) < n
    omega
  refine ⟨h.active, h.quota, ?_⟩
  show (if 0 < l.usage.qpCount then l.usage.qpCount - 1 else l.usage.qpCount).toInt =
    ((n - 1 : Nat) : Int)
  rw [if_pos hgt, hqp, h.qp]
  omega

/-- A destroyed QP is counted out. -/
theorem uncount (h : QpExact l n) (hpos : 1 ≤ n) :
    QpExact (withUsage l (countDelta .qp (-1) l.usage)) (n - 1) := by
  -- a fixed `-1` would be evaluated wherever the record is compared
  obtain ⟨delta, hdelta⟩ : ∃ delta : Int32, delta = -1 := ⟨_, rfl⟩
  rw [← hdelta]
  have hqp : (l.usage.qpCount - 1).toInt = l.usage.qpCount.toInt - 1 :=
    toInt_sub_one (by rw [h.qp]; omega)
  have hnot : ¬l.usage.qpCount + delta < 0 := by
    rw [hdelta, ← Int32.sub_eq_add_neg, Int32.lt_iff_toInt_lt, hqp, h.qp]
    show ¬((n : Int) - 1 < 0)
    omega
  refine ⟨h.active, h.quota, ?_⟩
  show (if l.usage.qpCount + delta < 0 then 0 else l.usage.qpCount + delta).toInt =
    ((n - 1 : Nat) : Int)
  rw [if_neg hnot, hdelta, ← Int32.sub_eq_add_neg, hqp, h.qp]
  omega

/-- Counting an MR, CQ or PD leaves the QPs alone. -/
theorem countOther (h : QpExact l n) {kind : ResourceKind} (hkind : kind ≠ .qp) (delta : Int32) :
    QpExact (withUsage l (countDelta kind delta l.usage)) n := by
  have hqp : (countDelta kind delta l.usage).qpCount = l.usage.qpCount := by
    cases kind with
    | qp => exact absurd rfl hkind
    | mr | cq | pd => rfl
  refine ⟨h.active, h.quota, ?_⟩
  rw [withUsage_usage, hqp]
  exact h.qp

/-- Every outcome of a QP creation: one more exactly if there is a new QP, and
the verb is invoked below the quota only. -/
theorem createQp {r : CreateQpResult} (h : QpExact l n) (hout : CreateQpOutcome l r l') :
    QpExact l' (n + if r.qp.isSome then 1 else 0) ∧
      (r.invoked.isSome → n < l.quota.maxQpPerTenant.toNat) := by
  cases hout with
  | refused hinv hqp =>
      rw [hqp]
      exact ⟨h, by simp [hinv]⟩
  | overQuota hinv hqp _ =>
      rw [hqp, h.clampQp]
      exact ⟨h, by simp [hinv]⟩
  | created hinv hqp hquota =>
      rw [h.clampQp] at hquota ⊢
      have hlt := h.lt_quota hquota
      rw [hqp]
      exact ⟨h.reserve hlt, fun _ => hlt⟩
  | failed hinv hqp hquota =>
      rw [h.clampQp] at hquota ⊢
      have hlt := h.lt_quota hquota
      rw [hqp]
      exact ⟨(h.reserve hlt).rollback (Nat.le_add_left 1 n), fun _ => hlt⟩

end QpExact

end MtRdma.Ports.RdmaHooks
