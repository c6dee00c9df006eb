import MtRdma.Ports.GlobalLimit

/-!
# By how much the global limit can be exceeded

Creations that check the global limit at the same time all find the same total,
so the limit is not kept.  It is not given up either.  Each process has at most
one creation between its check and its publication, a check that passes finds
fewer QPs recorded than the limit, and what is recorded of a process is never
less than what it has.  So `n` processes together never have more than
`limit + n - 1` QPs, in any interleaving of their creations and destructions
(`overshoot_bounded`).  For every `n` there is a schedule that gets there
(`overshoot_reached`).
-/

namespace MtRdma.Ports.GlobalOvershoot

open Verified.MachineInt
open Verified.Runs
open Verified.Interleaving
open SharedMemory
open RdmaHooks
open HookPieces
open HookCounters
open QpPublication
open ProcessLimit
open GlobalLimit

/-! ## One process -/

/-- A publication finds an entry or a free slot. -/
def Fits (x : Private × Segments) : Action → Prop
  | .publish _ => HasRoom x.2.shm x.1.proc.pid
  | _ => True

/-- The creation that a process has between its check and its publication. -/
def flight (p : Private) : Nat := inFlight p.pc.stage

theorem flight_le_one (p : Private) : flight p ≤ 1 := by
  unfold flight inFlight
  split
  all_goals omega

/-- What holds of one process: its entry records no less than it has been given,
and what it is about to publish is one more than that. -/
structure Reported (pid : Int) (limit : UInt32) (k : Pc) (s : Shared) : Prop where
  governed : Governed pid limit s.view.proc
  balanced : Balanced .qp s (holds k)
  entry : (qps s.returned : Int) ≤ (entryQp s.view.shm pid).toInt
  snapshot : ∀ qp usage, k = .publishing qp usage →
    usage.qpCount.toInt = (qps s.returned + 1 : Nat)

/-! ## All processes -/

section Sum

variable {ι : Type} [Fintype ι]

/-- What the entries of the processes add up to. -/
def entrySum (pid : ι → Int) (shm : SharedMemoryData) : Int :=
  ∑ i, (entryQp shm (pid i)).toInt

/-- What holds of all together: the total is the sum of the entries, which with
the creations on their way stays below the limit and the number of processes. -/
structure Overall (pid : ι → Int) (limit : UInt32) (shm : SharedMemoryData) (flying : Nat) :
    Prop where
  wf : TableWf shm
  nonneg : ∀ i, 0 ≤ (entryQp shm (pid i)).toInt
  total : shm.globalStats.qpCount.toInt = entrySum pid shm
  within : entrySum pid shm + flying < limit.toNat + Fintype.card ι

variable {pid : ι → Int} {limit : UInt32} {shm shm' : SharedMemoryData} {flying : Nat}

theorem Overall.entry_le (h : Overall pid limit shm flying) (i : ι) :
    (entryQp shm (pid i)).toInt ≤ entrySum pid shm :=
  Finset.single_le_sum (fun j _ => h.nonneg j) (Finset.mem_univ i)

theorem Overall.sum_nonneg (h : Overall pid limit shm flying) : 0 ≤ entrySum pid shm :=
  Finset.sum_nonneg fun i _ => h.nonneg i

/-- One entry is rewritten. -/
theorem entrySum_rewrite [DecidableEq ι] {i : ι}
    (hothers : ∀ j, j ≠ i → entryQp shm' (pid j) = entryQp shm (pid j)) :
    entrySum pid shm' = entrySum pid shm + ((entryQp shm' (pid i)).toInt -
      (entryQp shm (pid i)).toInt) := by
  unfold entrySum
  rw [← Finset.sum_erase_add _ _ (Finset.mem_univ i),
    ← Finset.sum_erase_add Finset.univ (fun j => (entryQp shm (pid j)).toInt) (Finset.mem_univ i)]
  have hrest : ∑ j ∈ Finset.univ.erase i, (entryQp shm' (pid j)).toInt =
      ∑ j ∈ Finset.univ.erase i, (entryQp shm (pid j)).toInt := by
    refine Finset.sum_congr rfl fun j hj => ?_
    rw [hothers j (Finset.ne_of_mem_erase hj)]
  rw [hrest]
  omega

end Sum

/-! ## One piece -/

section Steps

variable {ι : Type} [Fintype ι] {pid : ι → Int} {limit : UInt32} {i : ι} {k k' : Pc}
  {s s' : Shared} {a : Action} {rest : Nat}

/-- A check that passes: fewer QPs are recorded than the limit, and each of the
others has at most one creation on its way. -/
theorem Overall.check (h : Overall pid limit s.view.shm (rest + 0))
    (hgov : Governed (pid i) limit s.view.proc) (hrest : rest + 1 ≤ Fintype.card ι)
    (hpass : globalCheck s.view = true) : Overall pid limit s.view.shm (rest + 1) := by
  have hlt : s.view.shm.globalStats.qpCount.toUInt32 < limit := by
    rw [globalCheck_eq hgov.control hgov.shmMapped, decide_eq_true_eq] at hpass
    exact hgov.maxGlobal ▸ hpass
  have hnonneg := h.sum_nonneg
  have hrecorded : entrySum pid s.view.shm < limit.toNat := by
    rw [UInt32.lt_iff_toNat_lt] at hlt
    rw [← h.total, ← toNat_toUInt32 (by rw [h.total]; exact hnonneg)]
    exact_mod_cast hlt
  refine ⟨h.wf, h.nonneg, h.total, ?_⟩
  omega

variable [DecidableEq ι]

/-- A publication brings an entry up by at most one. -/
theorem Overall.publish {env : HookEnv} {qp : Nat} {usage : ResourceUsage}
    (h : Overall pid limit s.view.shm (rest + 1))
    (hrep : Reported (pid i) limit (.publishing qp usage) s)
    (hdistinct : Function.Injective pid) (hsmall : limit.toNat + Fintype.card ι ≤ 2 ^ 31)
    (hroom : HasRoom s.view.shm s.view.proc.pid) :
    (entryQp (publishUsage env usage s.view).shm (pid i)).toInt = (qps s.returned + 1 : Nat) ∧
      Overall pid limit (publishUsage env usage s.view).shm (rest + 0) := by
  have hgov := hrep.governed
  have hsnapshot := hrep.snapshot qp usage rfl
  have hentry := hrep.entry
  have hle := h.entry_le i
  have hwithin := h.within
  have hnonneg := h.sum_nonneg
  have hself : entryQp (publishUsage env usage s.view).shm (pid i) = usage.qpCount := by
    have hpublished := publishUsage_entry hgov.shmMapped env usage h.wf
      (hgov.pid_eq ▸ hgov.pid_pos) hroom
    rwa [publishUsage_proc, hgov.pid_eq] at hpublished
  have hothers : ∀ j, j ≠ i → entryQp (publishUsage env usage s.view).shm (pid j) =
      entryQp s.view.shm (pid j) := fun j hj =>
    entryQp_publish_ne hgov h.wf env usage fun heq => hj (hdistinct heq)
  have hsum := entrySum_rewrite hothers
  rw [hself, hsnapshot] at hsum
  have htotal : (publishUsage env usage s.view).shm.globalStats.qpCount =
      s.view.shm.globalStats.qpCount + (usage.qpCount - entryQp s.view.shm (pid i)) := by
    rw [publishUsage_shm hgov.shmMapped, ← hgov.pid_eq]
    exact globalQp_update_entry h.wf usage _ (hgov.pid_eq ▸ hgov.pid_pos) hroom
  refine ⟨by rw [hself, hsnapshot], publishUsage_wf hgov.shmMapped env usage h.wf, ?_, ?_, ?_⟩
  · intro j
    by_cases hj : j = i
    · rw [hj, hself, hsnapshot]
      exact Int.natCast_nonneg _
    · rw [hothers j hj]
      exact h.nonneg j
  · rw [htotal, toInt_add_sub, h.total, hsnapshot, hsum]
    · rw [h.total, hsnapshot]
      omega
    · rw [h.total, hsnapshot]
      omega
  · rw [hsum]
    omega

omit [DecidableEq ι] in
/-- The counter of a process is far from its end. -/
theorem Reported.noWrap (hrep : Reported (pid i) limit k s)
    (h : Overall pid limit s.view.shm (rest + inFlight k.stage))
    (hsmall : limit.toNat + Fintype.card ι ≤ 2 ^ 31) : NoWrap .qp (k, s) a := by
  apply noWrap_qp
  rintro qp rfl _
  have hcount := qpCount_uncounted hrep.balanced rfl
  have hentry := hrep.entry
  have hle := h.entry_le i
  have hwithin := h.within
  omega

/-- **The step lemma** for the process that acts. -/
theorem Reported.step (hrep : Reported (pid i) limit k s)
    (h : Overall pid limit s.view.shm (rest + inFlight k.stage))
    (hdistinct : Function.Injective pid) (hsmall : limit.toNat + Fintype.card ι ≤ 2 ^ 31)
    (hrest : rest + 1 ≤ Fintype.card ι)
    (hfits : ∀ env, a = .publish env → HasRoom s.view.shm s.view.proc.pid)
    (hmoved : Moved k s a k' s') :
    Reported (pid i) limit k' s' ∧ Overall pid limit s'.view.shm (rest + inFlight k'.stage) := by
  have hbalanced : Balanced .qp s' (holds k') :=
    hrep.balanced.step_alone hmoved (hrep.noWrap h hsmall)
  have hgov := hrep.governed.of_setup hmoved.setup
  cases qpMoved_of_moved hmoved with
  | checkOwn _ => exact ⟨⟨hgov, hbalanced, hrep.entry, nofun⟩, h⟩
  | checkGlobal hpass =>
      exact ⟨⟨hgov, hbalanced, hrep.entry, nofun⟩, h.check hrep.governed hrest hpass⟩
  | publish =>
      obtain ⟨hentry, hoverall⟩ := h.publish hrep hdistinct hsmall (hfits _ rfl)
      refine ⟨⟨hgov, hbalanced, ?_, nofun⟩, hoverall⟩
      have hqps := qps_publish hrep.balanced
      show ((qps (insert _ s.returned) : Nat) : Int) ≤ _
      rw [hqps]
      exact hentry.ge
  | other hshm hreturned _ hflight _ hsnapshot =>
      have hentry := hrep.entry
      have hwithin := h.within
      refine ⟨⟨hgov, hbalanced, ?_, ?_⟩, hshm ▸ h.wf, hshm ▸ h.nonneg, hshm ▸ h.total, ?_⟩
      · rw [hshm]
        omega
      · intro qp usage hk
        obtain ⟨rfl, rfl, rfl⟩ := hsnapshot qp usage hk
        have hcount := qpCount_counted hrep.balanced rfl
        have hle := h.entry_le i
        simp only [Pc.stage, inFlight] at hwithin
        rw [ownUsage_qpCount (by omega), hcount]
      · rw [hshm]
        omega

end Steps

/-! ## Any number of processes -/

section Result

variable {ι : Type}

theorem reported_start {pid : ι → Int} {limit : UInt32} {c : Config ι Private Segments}
    (h : GlobalStart pid limit c) (i : ι) :
    Reported (pid i) limit (c.control i).pc (join (c.control i) c.shared) where
  governed := (h.recorded i).governed
  balanced := (h.recorded i).balanced
  entry := by
    have hreturned : (join (c.control i) c.shared).returned = ∅ := h.returned i
    rw [(h.recorded i).entry, hreturned]
    exact Int.le_refl 0
  snapshot := by
    intro qp usage hk
    rw [h.idle i] at hk
    cases hk

variable [Fintype ι]

theorem overall_start [Nonempty ι] {pid : ι → Int} {limit : UInt32} {c : Config ι Private Segments}
    (h : GlobalStart pid limit c) : Overall pid limit c.shared.shm (tally flight c.control) := by
  have hentry : ∀ i, entryQp c.shared.shm (pid i) = 0 := by
    intro i
    unfold entryQp
    rw [h.empty]
    rfl
  have hsum : entrySum pid c.shared.shm = 0 := by
    refine Finset.sum_eq_zero fun i _ => ?_
    rw [hentry i]
    rfl
  have hflying : tally flight c.control = 0 := by
    refine tally_eq_zero fun i => ?_
    rw [flight, h.idle i]
    rfl
  refine ⟨h.wf, fun i => ?_, ?_, ?_⟩
  · rw [hentry i]
    decide
  · rw [h.total, hsum]
    rfl
  · rw [hsum, hflying]
    have hpos : 0 < Fintype.card ι := Fintype.card_pos
    omega

variable [DecidableEq ι]

/-- Each of the others has at most one creation on its way. -/
theorem others_flight_lt (control : ι → Private) (i : ι) :
    others flight control i + 1 ≤ Fintype.card ι := by
  have hsum : others flight control i ≤ (Finset.univ.erase i).card • 1 :=
    Finset.sum_le_card_nsmul _ _ _ fun j _ => flight_le_one (control j)
  have hcard : (Finset.univ.erase i).card = Fintype.card ι - 1 := by
    rw [Finset.card_erase_of_mem (Finset.mem_univ i), Finset.card_univ]
  have hpos : 0 < Fintype.card ι := Fintype.card_pos_iff.mpr ⟨i⟩
  rw [hcard, smul_eq_mul, Nat.mul_one] at hsum
  omega

/-- **The overshoot is bounded.**  In every interleaving of creations,
destructions and registrations, `n` processes under a global limit never have
more than `limit + n - 1` QPs together, as long as each publication finds room
in the table. -/
theorem overshoot_bounded {pid : ι → Int} {limit : UInt32} {c₀ c : Config ι Private Segments}
    {labels : List (ι × Action)} (hsmall : limit.toNat + Fintype.card ι ≤ 2 ^ 31)
    (hstart : GlobalStart pid limit c₀) (hrun : Run (Guarded Fits processPiece) c₀ labels c) :
    ∑ i, qps (c.control i).live ≤ limit.toNat + (Fintype.card ι - 1) := by
  rcases isEmpty_or_nonempty ι with hempty | hnonempty
  · simp
  have hcrowd : Run (GuardedBy flight (fun rest x a => Fits x a ∧ rest + 1 ≤ Fintype.card ι)
      processPiece) c₀ labels c := by
    refine hrun.mono ?_
    rintro c₁ ⟨i, a⟩ c₂ ⟨hfits, hact⟩
    exact ⟨⟨hfits, others_flight_lt c₁.control i⟩, hact⟩
  have hinv : (∀ i, Reported (pid i) limit (c.control i).pc (join (c.control i) c.shared)) ∧
      Overall pid limit c.shared.shm (tally flight c.control) := by
    refine local_tally_invariant
      (L := fun i p g => Reported (pid i) limit p.pc (join p g))
      (I := fun g => Overall pid limit g.shm) ?_ (reported_start hstart) (overall_start hstart)
      hcrowd
    rintro i rest p g a p' g' hrep hoverall ⟨hfits, hrest⟩ hstep
    have hmoved := moved_of_processPiece hstep
    have hroom : ∀ env, a = .publish env →
        HasRoom (join p g).view.shm (join p g).view.proc.pid := by
      rintro env rfl
      exact hfits
    obtain ⟨hrep', hoverall'⟩ :=
      hrep.step hoverall hstart.distinct hsmall hrest hroom hmoved
    refine ⟨hrep', hoverall', ?_⟩
    intro j q hji hother
    have hne : pid j ≠ pid i := fun heq => hji (hstart.distinct heq)
    have hentry := entryQp_other hrep.governed hoverall.wf (qpMoved_of_moved hmoved) hne
    exact ⟨hother.governed, hother.balanced.of_view rfl, hentry ▸ hother.entry, hother.snapshot⟩
  obtain ⟨hrep, hoverall⟩ := hinv
  have hlive : ∀ i, (qps (c.control i).live : Int) ≤
      (entryQp c.shared.shm (pid i)).toInt + (flight (c.control i) : Int) := by
    intro i
    have hreturned := qps_live_le (hrep i).balanced
    have hentry := (hrep i).entry
    have hsum : qps (c.control i).live ≤ qps (c.control i).returned + flight (c.control i) :=
      hreturned
    have hle : (qps (c.control i).returned : Int) ≤ (entryQp c.shared.shm (pid i)).toInt := hentry
    omega
  have htotal : ((∑ i, qps (c.control i).live : Nat) : Int) ≤
      entrySum pid c.shared.shm + (tally flight c.control : Nat) := by
    calc ((∑ i, qps (c.control i).live : Nat) : Int)
        = ∑ i, (qps (c.control i).live : Int) := Nat.cast_sum _ _
      _ ≤ ∑ i, ((entryQp c.shared.shm (pid i)).toInt + (flight (c.control i) : Int)) :=
          Finset.sum_le_sum fun i _ => hlive i
      _ = entrySum pid c.shared.shm + (tally flight c.control : Nat) := by
          rw [Finset.sum_add_distrib, tally, Nat.cast_sum]
          rfl
  have hwithin := hoverall.within
  omega

end Result

/-! ## The bound is reached -/

section Crowd

variable {n : Nat}

/-- Processes 1 to `n`. -/
def crowdPid (i : Fin n) : Int := i.val + 1

/-- A process of the crowd at a piece, with its objects, under a global limit of
one. -/
def crowdPrivate (i : Fin n) (k : Pc) (live : Finset Object) : Private :=
  ⟨k, limitedProcess (crowdPid i) 100 1, live, ∅⟩

/-- The empty segments. -/
def emptySegments : Segments := ⟨SharedMemory.zeroed, SharedMemoryTenant.zeroed⟩

/-- The first `m` processes have created their QPs and published nothing. -/
def crowdAfter (n m : Nat) : Config (Fin n) Private Segments :=
  ⟨emptySegments, fun i =>
    if i.val < m then crowdPrivate i (.created i.val) {.qp i.val} else crowdPrivate i .idle ∅⟩

theorem crowdPid_pos (i : Fin n) : 0 < crowdPid i := by
  unfold crowdPid
  omega

theorem crowd_start : GlobalStart crowdPid 1 (crowdAfter n 0) where
  distinct := by
    intro i j hij
    unfold crowdPid at hij
    exact Fin.ext (by omega)
  governed := fun i => ⟨rfl, crowdPid_pos i, rfl, rfl, rfl⟩
  idle := fun _ => rfl
  live := fun _ => rfl
  returned := fun _ => rfl
  counter := fun _ => rfl
  wf := TableWf.zeroed
  empty := usageMap_zeroed
  total := rfl

/-- A creation up to where the QP exists. -/
def creation (qp : Nat) : List Action :=
  [.checkOwn false plainAttr, .checkGlobal, .tenantStep quietEnv, .createQp (some qp)]

/-- As long as nothing is published, a process gets through both checks and
creates a QP. -/
theorem crowd_creates (i : Fin n) (qp : Nat) :
    (creation qp).foldlM processPiece (crowdPrivate i .idle ∅, emptySegments) =
      some (crowdPrivate i (.created qp) {.qp qp}, emptySegments) := by
  have hentry : entryQp (join (crowdPrivate i .idle ∅) emptySegments).view.shm
      (join (crowdPrivate i .idle ∅) emptySegments).view.proc.pid = 0 := entryQp_zeroed _
  have hown : ownChecks false plainAttr (join (crowdPrivate i .idle ∅) emptySegments).view =
      true := by
    rw [ownChecks_eq rfl rfl (crowdPid_pos i), hentry]
    rfl
  have hglobal : globalCheck (join (crowdPrivate i .checking ∅) emptySegments).view = true := by
    rw [globalCheck_eq rfl rfl]
    rfl
  have hfirst : processPiece (crowdPrivate i .idle ∅, emptySegments)
      (.checkOwn false plainAttr) = some (crowdPrivate i .checking ∅, emptySegments) := by
    show (pieceStep (.idle, join (crowdPrivate i .idle ∅) emptySegments) _).map _ = _
    rw [pieceStep, if_pos hown]
    rfl
  have hsecond : processPiece (crowdPrivate i .checking ∅, emptySegments) .checkGlobal =
      some (crowdPrivate i .permitted ∅, emptySegments) := by
    show (pieceStep (.checking, join (crowdPrivate i .checking ∅) emptySegments) _).map _ = _
    rw [pieceStep, if_pos hglobal]
    rfl
  rw [creation, List.foldlM_cons, hfirst, Option.bind_eq_bind, Option.bind_some,
    List.foldlM_cons, hsecond]
  rfl

theorem creation_fits (qp : Nat) (x : Private × Segments) : ∀ a ∈ creation qp, Fits x a := by
  intro a ha
  simp only [creation, List.mem_cons, List.not_mem_nil, or_false] at ha
  rcases ha with rfl | rfl | rfl | rfl
  all_goals trivial

/-- The next process creates its QP. -/
theorem crowd_next {m : Nat} (hm : m < n) :
    Run (Guarded Fits processPiece) (crowdAfter n m) ((creation m).map ((⟨m, hm⟩ : Fin n), ·))
      (crowdAfter n (m + 1)) := by
  have hcontrol : (crowdAfter n m).control ⟨m, hm⟩ = crowdPrivate ⟨m, hm⟩ .idle ∅ :=
    if_neg (Nat.lt_irrefl m)
  have hrun := run_of_agent (i := (⟨m, hm⟩ : Fin n)) (c := crowdAfter n m)
    (creation_fits m) (hcontrol ▸ crowd_creates ⟨m, hm⟩ m)
  have hafter : (⟨emptySegments, Function.update (crowdAfter n m).control ⟨m, hm⟩
      (crowdPrivate ⟨m, hm⟩ (.created m) {.qp m})⟩ : Config (Fin n) Private Segments) =
      crowdAfter n (m + 1) := by
    unfold crowdAfter
    congr 1
    funext i
    by_cases him : i = ⟨m, hm⟩
    · subst him
      simp
    · have hne : i.val ≠ m := fun heq => him (Fin.ext heq)
      have hlt : i.val < m + 1 ↔ i.val < m := by omega
      simp [Function.update_of_ne him, hlt]
  exact hafter ▸ hrun

theorem crowd_run : ∀ m, m ≤ n →
    ∃ labels, Run (Guarded Fits processPiece) (crowdAfter n 0) labels (crowdAfter n m)
  | 0, _ => ⟨[], .start⟩
  | m + 1, hm => by
      obtain ⟨labels, hrun⟩ := crowd_run m (Nat.le_of_succ_le hm)
      exact ⟨_, hrun.append (crowd_next hm)⟩

/-- **The bound is sharp.**  For every number of processes there is a schedule in
which each of them has a QP under a global limit of one. -/
theorem overshoot_reached (n : Nat) : ∃ labels,
    GlobalStart crowdPid 1 (crowdAfter n 0) ∧
      Run (Guarded Fits processPiece) (crowdAfter n 0) labels (crowdAfter n n) ∧
      ∑ i, qps ((crowdAfter n n).control i).live = n := by
  obtain ⟨labels, hrun⟩ := crowd_run n (Nat.le_refl n)
  refine ⟨labels, crowd_start, hrun, ?_⟩
  have hone : ∀ i : Fin n, qps ((crowdAfter n n).control i).live = 1 := by
    intro i
    have hcontrol : (crowdAfter n n).control i = crowdPrivate i (.created i.val) {.qp i.val} :=
      if_pos i.isLt
    rw [hcontrol]
    rfl
  rw [Finset.sum_congr rfl fun i _ => hone i]
  simp

/-- Two processes, two QPs, a limit of one. -/
theorem overshoot_bounded_pair :
    ∑ i, qps ((crowdAfter 2 2).control i).live ≤
      (1 : UInt32).toNat + (Fintype.card (Fin 2) - 1) := by
  obtain ⟨labels, hrun⟩ := crowd_run 2 (Nat.le_refl 2)
  exact overshoot_bounded (by decide) crowd_start hrun

end Crowd

end MtRdma.Ports.GlobalOvershoot
