import MtRdma.Verified.Interleaving
import MtRdma.Ports.CacheSections

/-!
# The lifetime of cached records (`performance_optimizer.c`)

`g_cache.ttl_ms` belongs to no lock.  `perf_optimizer_set_cache_ttl` stores a
value between 10 and 10000, and `perf_optimizer_adaptive_adjust`, which the flush
thread calls now and then, moves it by 10: it compares, reads once more, and
writes.  A setter can come in between, so that the value that is moved is not the
one that was compared, and a subtraction below zero would make a lifetime of 49
days.

This cannot happen as long as one thread adjusts, and it can as soon as two do:
`ttl_bounded_iff`.  With the exactness of hits it follows that no record is used
that is more than 10010 milliseconds old (`hits_within_ten_seconds`).

The hit rate is a floating-point number.  Only how it compares with 50 and 90
matters, and this is an argument of the adjustment.
-/

namespace MtRdma.Ports.CacheLifetime

open Verified.Interleaving
open Verified.LockedSections (GlanceStep GlanceState GlanceEvent startGlances completed
  sectionLabel)
open Verified.Runs
open SharedMemory
open PerformanceOptimizer
open ResourceCache
open CacheSections

/-! ## The accesses -/

/-- What the adjustment makes of the hit rate.  It is `middling` as well when there
are fewer than 100 samples. -/
inductive Rate where
  | low
  | middling
  | high
  deriving DecidableEq

/-- Where a thread is.  An adjustment has `decided` after its comparison, and has
`loaded` the value that it is about to move. -/
inductive Phase where
  | idle
  | decided (up : Bool)
  | loaded (up : Bool) (ttlMs : UInt32)
  deriving DecidableEq

inductive Action where
  | set (ttlMs : UInt32)
  /-- The comparison of `perf_optimizer_adaptive_adjust`. -/
  | compare (rate : Rate)
  | load
  | store
  deriving DecidableEq

/-- `ttl_ms += 10` and `ttl_ms -= 10`. -/
def moved (up : Bool) (ttlMs : UInt32) : UInt32 := if up then ttlMs + 10 else ttlMs - 10

/-- The two tests of `perf_optimizer_adaptive_adjust`. -/
def compared (ttlMs : UInt32) : Rate → Phase
  | .low => if 50 < ttlMs then .decided false else .idle
  | .middling => .idle
  | .high => if ttlMs < 500 then .decided true else .idle

/-- One access to `g_cache.ttl_ms`. -/
def lifetimeStep (x : Phase × UInt32) : Action → Option (Phase × UInt32)
  | .set ttlMs =>
      match x.1 with
      | .idle => some (.idle, clipTtl ttlMs)
      | _ => none
  | .compare rate =>
      match x.1 with
      | .idle => some (compared x.2 rate, x.2)
      | _ => none
  | .load =>
      match x.1 with
      | .decided up => some (.loaded up x.2, x.2)
      | _ => none
  | .store =>
      match x.1 with
      | .loaded up ttlMs => some (.idle, moved up ttlMs)
      | _ => none

section Threads

variable {ι : Type} [DecidableEq ι] {adjusts : ι → Prop}

/-- The threads in `adjusts` may adjust. -/
def Permitted (adjusts : ι → Prop) (label : ι × Action) : Prop :=
  ∀ rate, label.2 = .compare rate → adjusts label.1

/-- One access of one thread. -/
def LifetimeStep (adjusts : ι → Prop) (c : Config ι Phase UInt32) (label : ι × Action)
    (c' : Config ι Phase UInt32) : Prop :=
  Permitted adjusts label ∧ Interleaved lifetimeStep c label c'

/-- After `perf_optimizer_init`. -/
def initial : Config ι Phase UInt32 := ⟨100, fun _ => .idle⟩

/-! ## One thread adjusts -/

/-- The values that can safely be moved. -/
def Movable (up : Bool) (ttlMs : UInt32) : Prop :=
  if up then ttlMs.toNat ≤ 10000 else 10 ≤ ttlMs.toNat ∧ ttlMs.toNat ≤ 10010

/-- The lifetime is in range; a thread that has decided finds, and one that has
loaded holds, a value that can be moved. -/
def PhaseOk (ttlMs : UInt32) : Phase → Prop
  | .idle => True
  | .decided up => Movable up ttlMs
  | .loaded up held => Movable up held

structure LifetimeInv (adjusts : ι → Prop) (c : Config ι Phase UInt32) : Prop where
  range : c.shared.toNat ≤ 10010
  phase : ∀ i, PhaseOk c.shared (c.control i)
  mine : ∀ i, c.control i ≠ .idle → adjusts i

theorem clipTtl_range (ttlMs : UInt32) :
    10 ≤ (clipTtl ttlMs).toNat ∧ (clipTtl ttlMs).toNat ≤ 10000 := by
  have hten : (10 : UInt32).toNat = 10 := rfl
  have hmax : (10000 : UInt32).toNat = 10000 := rfl
  unfold clipTtl
  dsimp only
  split_ifs with hsmall hlarge hlarge
  · omega
  · omega
  · omega
  · rw [UInt32.lt_iff_toNat_lt] at hsmall hlarge
    omega

theorem movable_clipTtl (up : Bool) (ttlMs : UInt32) : Movable up (clipTtl ttlMs) := by
  obtain ⟨hlow, hhigh⟩ := clipTtl_range ttlMs
  cases up with
  | true => exact hhigh
  | false => exact ⟨hlow, by omega⟩

theorem moved_le {up : Bool} {ttlMs : UInt32} (h : Movable up ttlMs) :
    (moved up ttlMs).toNat ≤ 10010 := by
  cases up with
  | true =>
      have hle : ttlMs.toNat ≤ 10000 := h
      show (ttlMs + 10).toNat ≤ 10010
      rw [UInt32.toNat_add]
      have hmod := Nat.mod_le (ttlMs.toNat + (10 : UInt32).toNat) (2 ^ 32)
      have hten : (10 : UInt32).toNat = 10 := rfl
      omega
  | false =>
      obtain ⟨hlow, hhigh⟩ := h
      show (ttlMs - 10).toNat ≤ 10010
      have hten : (10 : UInt32) ≤ ttlMs := hlow
      rw [UInt32.toNat_sub_of_le _ _ hten]
      omega

omit [DecidableEq ι] in
theorem LifetimeInv.initial : LifetimeInv adjusts initial where
  range := show (100 : UInt32).toNat ≤ 10010 by decide
  phase _ := trivial
  mine _ h := absurd rfl h

omit [DecidableEq ι] in
/-- A thread that is in the middle of an adjustment is the only one. -/
theorem LifetimeInv.others_idle (hone : ∀ i j, adjusts i → adjusts j → i = j)
    {c : Config ι Phase UInt32} (h : LifetimeInv adjusts c) {i : ι} (hi : c.control i ≠ .idle)
    {j : ι} (hj : j ≠ i) : c.control j = .idle := by
  by_contra hbusy
  exact hj (hone j i (h.mine j hbusy) (h.mine i hi))

theorem LifetimeInv.move {c : Config ι Phase UInt32} (h : LifetimeInv adjusts c) {i : ι}
    {phase : Phase} {ttlMs : UInt32} (hrange : ttlMs.toNat ≤ 10010) (hphase : PhaseOk ttlMs phase)
    (hmine : phase ≠ .idle → adjusts i) (hothers : ∀ j, j ≠ i → PhaseOk ttlMs (c.control j)) :
    LifetimeInv adjusts ⟨ttlMs, Function.update c.control i phase⟩ where
  range := hrange
  phase := (Function.forall_update_iff c.control fun _ phase => PhaseOk ttlMs phase).mpr
    ⟨hphase, hothers⟩
  mine := (Function.forall_update_iff c.control fun j phase => phase ≠ .idle → adjusts j).mpr
    ⟨hmine, fun j _ => h.mine j⟩

theorem phaseOk_compared (rate : Rate) {ttlMs : UInt32} (hrange : ttlMs.toNat ≤ 10010) :
    PhaseOk ttlMs (compared ttlMs rate) := by
  cases rate with
  | low =>
      by_cases habove : 50 < ttlMs
      · have hlow : (50 : UInt32).toNat < ttlMs.toNat := UInt32.lt_iff_toNat_lt.mp habove
        have hten : 10 ≤ ttlMs.toNat := Nat.le_trans (by decide) (Nat.le_of_lt hlow)
        rw [compared, if_pos habove]
        exact ⟨hten, hrange⟩
      · rw [compared, if_neg habove]
        trivial
  | middling => trivial
  | high =>
      by_cases hbelow : ttlMs < 500
      · have hhigh : ttlMs.toNat < (500 : UInt32).toNat := UInt32.lt_iff_toNat_lt.mp hbelow
        have hmax : ttlMs.toNat ≤ 10000 := Nat.le_trans (Nat.le_of_lt hhigh) (by decide)
        rw [compared, if_pos hbelow]
        exact hmax
      · rw [compared, if_neg hbelow]
        trivial

theorem LifetimeInv.step (hone : ∀ i j, adjusts i → adjusts j → i = j)
    {c c' : Config ι Phase UInt32} {label : ι × Action} (h : LifetimeInv adjusts c)
    (hstep : LifetimeStep adjusts c label c') : LifetimeInv adjusts c' := by
  obtain ⟨i, action⟩ := label
  obtain ⟨hmay, hact⟩ := hstep
  obtain ⟨⟨phase, ttlMs⟩, hnext, rfl⟩ := Option.map_eq_some_iff.mp hact
  dsimp only at hnext ⊢
  have hphase := h.phase i
  have hmine := h.mine i
  cases hpc : c.control i with
  | idle =>
      cases action with
      | set ttl =>
          obtain ⟨rfl, rfl⟩ : .idle = phase ∧ clipTtl ttl = ttlMs := by
            simpa [lifetimeStep, hpc] using hnext
          have hclip := clipTtl_range ttl
          refine h.move (by omega) trivial (fun hne => absurd rfl hne) fun j _ => ?_
          have hj := h.phase j
          cases hpj : c.control j with
          | idle => trivial
          | decided up => exact movable_clipTtl up ttl
          | loaded up held =>
              rw [hpj] at hj
              exact hj
      | compare rate =>
          obtain ⟨rfl, rfl⟩ : compared c.shared rate = phase ∧ c.shared = ttlMs := by
            simpa [lifetimeStep, hpc] using hnext
          exact h.move h.range (phaseOk_compared rate h.range) (fun _ => hmay rate rfl)
            fun j _ => h.phase j
      | load | store => simp [lifetimeStep, hpc] at hnext
  | decided up =>
      rw [hpc] at hphase hmine
      cases action with
      | load =>
          obtain ⟨rfl, rfl⟩ : .loaded up c.shared = phase ∧ c.shared = ttlMs := by
            simpa [lifetimeStep, hpc] using hnext
          exact h.move h.range hphase (fun _ => hmine nofun) fun j _ => h.phase j
      | set | compare | store => simp [lifetimeStep, hpc] at hnext
  | loaded up held =>
      rw [hpc] at hphase hmine
      cases action with
      | store =>
          obtain ⟨rfl, rfl⟩ : .idle = phase ∧ moved up held = ttlMs := by
            simpa [lifetimeStep, hpc] using hnext
          refine h.move (moved_le hphase) trivial (fun hne => absurd rfl hne) fun j hj => ?_
          rw [h.others_idle hone (by rw [hpc]; nofun) hj]
          trivial
      | set | compare | load => simp [lifetimeStep, hpc] at hnext

theorem lifetime_inv (hone : ∀ i j, adjusts i → adjusts j → i = j) {labels : List (ι × Action)}
    {c : Config ι Phase UInt32} (hrun : Run (LifetimeStep adjusts) initial labels c) :
    LifetimeInv adjusts c :=
  hrun.invariant LifetimeInv.initial fun _ _ _ h hstep => h.step hone hstep

/-! ## Two threads adjust -/

/-- Thread `i` is about to take 10 from 10 when `j` sees 100 and decides to take 10
as well. -/
def twoAdjust (i j : ι) : List (ι × Action) :=
  [(i, .compare .low), (j, .set 10), (i, .load), (j, .set 100), (j, .compare .low), (i, .store),
    (j, .load), (j, .store)]

theorem twoAdjust_run {i j : ι} (hij : i ≠ j) (hi : adjusts i) (hj : adjusts j) :
    ∃ c, Run (LifetimeStep adjusts) initial (twoAdjust i j) c ∧ c.shared = 4294967286 := by
  have hpermitted : ∀ label ∈ twoAdjust i j, Permitted adjusts label := by
    intro label hlabel rate _
    simp only [twoAdjust, List.mem_cons, List.not_mem_nil, or_false] at hlabel
    rcases hlabel with rfl | rfl | rfl | rfl | rfl | rfl | rfl | rfl <;> assumption
  have hexec : ∃ c, (twoAdjust i j).foldlM (act lifetimeStep) initial = some c ∧
      c.shared = 4294967286 := by
    simp [twoAdjust, act, lifetimeStep, compared, initial, hij, hij.symm, clipTtl, moved]
    rfl
  obtain ⟨c, hc, hshared⟩ := hexec
  exact ⟨c, (run_of_foldlM hc).labelled hpermitted, hshared⟩

/-- **The lifetime stays in range exactly if one thread adjusts it.**  Whatever the
setters do, and wherever their stores fall between the accesses of an
adjustment, the lifetime never exceeds 10010 milliseconds.  With two adjusting
threads it can go below zero. -/
theorem ttl_bounded_iff (adjusts : ι → Prop) :
    (∀ labels c, Run (LifetimeStep adjusts) initial labels c → c.shared.toNat ≤ 10010) ↔
      ∀ i j, adjusts i → adjusts j → i = j := by
  constructor
  · intro hbounded i j hi hj
    by_contra hij
    obtain ⟨c, hrun, hshared⟩ := twoAdjust_run hij hi hj
    have hwrapped := hbounded _ c hrun
    rw [hshared] at hwrapped
    exact absurd hwrapped (by decide)
  · intro hone labels c hrun
    exact (lifetime_inv hone hrun).range

/-- The lifetimes that a reader can find. -/
def Findable (adjusts : ι → Prop) (ttlMs : UInt32) : Prop :=
  ∃ labels c, Run (LifetimeStep adjusts) initial labels c ∧ c.shared = ttlMs

/-- **No record is used that is more than ten seconds old.**  Threads update, read
and drop an entry, set and adjust the lifetime, access by access and in any
order.  If one thread adjusts, then the record that a reader gets is that of the
last update of its pid, and the clock of the reader is at most 10010
milliseconds ahead of the clock of that update. -/
theorem hits_within_ten_seconds {κ : Type} [DecidableEq κ]
    (hone : ∀ i j, adjusts i → adjusts j → i = j)
    {labels : List (κ × GlanceEvent EntryCall (Option ResourceUsage))}
    {c : GlanceState κ CacheEntry EntryCall (Option ResourceUsage)}
    (hrun : Run (GlanceStep glance entryBody) (startGlances blankEntry) labels c)
    {before after : List (Completed κ)} {i : κ} {now : UInt64} {ttlMs : UInt32} {pid : Int}
    {usage : ResourceUsage} (hcompleted : completed (labels.filterMap sectionLabel) =
      before ++ (i, .get now ttlMs pid, some usage) :: after) (hfound : Findable adjusts ttlMs) :
    ∃ since, Stored pid since usage before ∧ (now - since).toNat ≤ 10010 := by
  obtain ⟨since, hstored, hfresh⟩ := hit_stored hrun hcompleted
  obtain ⟨steps, lifetime, hsteps, rfl⟩ := hfound
  have hrange := (lifetime_inv hone hsteps).range
  refine ⟨since, hstored, ?_⟩
  rw [UInt64.lt_iff_toNat_lt, not_lt, UInt32.toNat_toUInt64] at hfresh
  exact hfresh.trans hrange

end Threads

/-- The flush thread, which is the only one that adjusts, raises 90 to 100 after
another thread has set it. -/
theorem findable_raised : Findable (fun i : Fin 2 => i = 1) 100 := by
  have hexec : ∃ c : Config (Fin 2) Phase UInt32,
      [(0, .set 90), (1, .compare .high), (1, .load), (1, .store)].foldlM (act lifetimeStep)
        initial = some c ∧ c.shared = 100 := ⟨_, rfl, rfl⟩
  obtain ⟨c, hc, hshared⟩ := hexec
  exact ⟨_, c, (run_of_foldlM hc).labelled (by simp [Permitted]), hshared⟩

theorem hits_within_ten_seconds_raised :
    ∃ since, Stored 7 since ⟨1, 2, 3⟩ [((0 : Fin 2), .update 5 7 ⟨1, 2, 3⟩, none)] ∧
      ((7 : UInt64) - since).toNat ≤ 10010 := by
  obtain ⟨labels, c, hrun, hcompleted⟩ := sharedHit_run
  have hone : ∀ i j : Fin 2, i = 1 → j = 1 → i = j := fun i j hi hj => hi.trans hj.symm
  exact hits_within_ten_seconds hone hrun hcompleted findable_raised

end MtRdma.Ports.CacheLifetime
