import MtRdma.Ports.ConfigLines
import MtRdma.Ports.FailedCalls
import MtRdma.Ports.HookCounters
import MtRdma.Ports.MemoryQuota

/-!
# The per-process control of memory regions

The configuration has a switch `enable_mr_control` with two limits,
`max_mr_per_process` and `max_memory_per_process`.  The hooks keep the two
counters that these limits are about, `mr_count` and `memory_used`, and never
compare them with anything: no line of `ibv_reg_mr` reads the switch or the
limits.

The counters are good enough for the missing check.  In a run in which every
registration that is granted would have passed it, the counters are exact and
the limits hold (`mr_control_of_checked`); and a registration that would not
have passed breaks a limit at once (`within_after_iff`).
-/

namespace MtRdma.Ports.MrControl

open Verified.Runs
open SharedMemory
open SharedMemoryTenant
open RdmaHooks
open HookPieces
open HookCounters
open FailedCalls
open ConfigLines

/-! ## One process and its MRs -/

/-- A process, the segments as it sees them, and the MRs that it has registered
with their lengths. -/
structure MrProcess where
  view : View
  live : Finset Nat
  length : Nat → UInt64

/-- A call of one of the two hooks, or a change that others make to the
segments between two calls. -/
inductive MrEvent where
  | call (c : MemoryCall)
  | others (shm : SharedMemoryData) (tenant : TenantSharedMemory)

/-- What happens to the process and its MRs.  A deregistration reads the length
in the MR. -/
def MrProcess.after (w : MrProcess) : MrEvent → MrProcess
  | .others shm tenant => { w with view := { w.view with shm := shm, tenant := tenant } }
  | .call (.regMr env length real) =>
      let r := ibvRegMr env length real w.view
      match r.1.object with
      | some mr => ⟨r.2, insert mr w.live, Function.update w.length mr length⟩
      | none => { w with view := r.2 }
  | .call (.deregMr env mr real) =>
      let r := ibvDeregMr env (w.length mr) real w.view
      { w with view := r.2, live := if r.1.rc = 0 then w.live.erase mr else w.live }

/-- When the call gets past the initialization, interception is on, with this
configuration. -/
def Intercepts (config : FullConfig) (env : HookEnv) (v : View) : Prop :=
  rdmaInterceptIsEnabled (hooksInitOnce env v).proc = true ∧
    (hooksInitOnce env v).proc.intercept.config = config.toInterceptConfig

/-- The calls of the runs below: MR control is on, a new MR is not one that
exists already, and an MR is deregistered while it exists. -/
def Permitted (config : FullConfig) (w : MrProcess) : MrEvent → Prop
  | .others _ _ => True
  | .call (.regMr env _ real) =>
      Intercepts config env w.view ∧ ∀ mr, real = some mr → mr ∉ w.live
  | .call (.deregMr env mr real) => Intercepts config env w.view ∧ (real = 0 → mr ∈ w.live)

/-- One event of a process whose configuration switches MR control on. -/
def MrStep (config : FullConfig) (w : MrProcess) (e : MrEvent) (w' : MrProcess) : Prop :=
  config.enableMrControl = true ∧ Permitted config w e ∧ w' = w.after e

/-- The sum of the lengths of the live MRs. -/
def MrProcess.registered (w : MrProcess) : Nat := ∑ mr ∈ w.live, (w.length mr).toNat

/-- Both limits hold. -/
def WithinControl (config : FullConfig) (w : MrProcess) : Prop :=
  w.live.card ≤ config.maxMrPerProcess.toNat ∧
    w.registered ≤ config.maxMemoryPerProcess.toNat

/-- With interception on, `ibv_reg_mr` grants a registration: the verb is there,
the quota of the tenant and the rate limit let the call pass, and the verb
succeeds. -/
structure Grants (env : HookEnv) (length : UInt64) (real : Option Nat) (v : View) : Prop where
  found : (hooksInitOnce env v).proc.realVerbs.regMr = true
  quota : checkTenantMrLimitInline (getCurrentTenantId env (hooksInitOnce env v)).1 length
    (getCurrentTenantId env (hooksInitOnce env v)).2 = true
  rate : (checkMrRateLimit env (getCurrentTenantId env (hooksInitOnce env v)).2.proc).1 = true
  verb : real ≠ none

/-- The check that `ibv_reg_mr` does not make, on the counters that it keeps.
Only a registration that is granted has to pass it. -/
def PassesControl (config : FullConfig) (w : MrProcess) : MrEvent → Prop
  | .call (.regMr env length real) =>
      Grants env length real w.view →
        w.view.proc.intercept.mrCount < config.maxMrPerProcess ∧
          w.view.proc.intercept.memoryUsed.toNat + length.toNat ≤
            config.maxMemoryPerProcess.toNat
  | _ => True

/-! ## What the hooks do to the counters -/

section Hooks

variable {env : HookEnv} {length : UInt64} {v : View}

theorem grants_iff {real : Option Nat}
    (hon : rdmaInterceptIsEnabled (hooksInitOnce env v).proc = true) :
    Grants env length real v ↔ (ibvRegMr env length real v).1.object ≠ none := by
  unfold ibvRegMr
  constructor
  · intro h
    obtain ⟨mr, rfl⟩ := Option.ne_none_iff_exists'.mp h.verb
    simp [h.found, hon, h.quota, h.rate]
  · simp only
    split
    · exact fun h => absurd rfl h
    · rw [if_neg (by simp [hon])]
      split
      · exact fun h => absurd rfl h
      · split
        · exact fun h => absurd rfl h
        · next hfound hquota hrate =>
            cases real with
            | none => exact fun h => absurd rfl h
            | some mr =>
                exact fun _ => ⟨by simpa using hfound, by simpa using hquota,
                  by simpa using hrate, Option.some_ne_none mr⟩

theorem countOwnMr_congr {p q : Process} (h : p.intercept = q.intercept) :
    (countOwnMr length p).intercept = (countOwnMr length q).intercept := by
  simp only [countOwnMr, h]

theorem uncountOwnMr_congr {p q : Process} (h : p.intercept = q.intercept) :
    (uncountOwnMr length p).intercept = (uncountOwnMr length q).intercept := by
  simp only [uncountOwnMr, h]

/-- A registration that is granted is counted. -/
theorem ibvRegMr_counts {real : Option Nat}
    (hon : rdmaInterceptIsEnabled (hooksInitOnce env v).proc = true) :
    (ibvRegMr env length real v).1.object ≠ none →
      (ibvRegMr env length real v).2.proc.intercept =
        (countOwnMr length (hooksInitOnce env v).proc).intercept := by
  have hresolved := SameAccounts.getCurrentTenantId env (hooksInitOnce env v)
  have hlimited := hresolved.trans (SameAccounts.checkMrRateLimit env _)
  have hcases := ibvRegMr_cases env length real v
  generalize ibvRegMr env length real v = result at hcases ⊢
  intro hgranted
  cases hcases with
  | missing | overQuota | overRate | refused => exact absurd rfl hgranted
  | passed hoff => simp [hon] at hoff
  | registered =>
      exact (SameAccounts.updateTenantResourceCount _ .mr 1 _).intercept.trans
        (countOwnMr_congr hlimited.intercept)

/-- A deregistration that succeeds is uncounted, and the verb has succeeded. -/
theorem ibvDeregMr_uncounts {real : Int}
    (hon : rdmaInterceptIsEnabled (hooksInitOnce env v).proc = true) :
    (ibvDeregMr env length real v).1.rc = 0 →
      real = 0 ∧ (ibvDeregMr env length real v).2.proc.intercept =
        (uncountOwnMr length (hooksInitOnce env v).proc).intercept := by
  have hlimited := SameAccounts.checkMrRateLimit env (hooksInitOnce env v)
  have hcases := ibvDeregMr_cases env length real v
  generalize ibvDeregMr env length real v = result at hcases ⊢
  intro hdone
  cases hcases with
  | missing | overRate => cases hdone
  | passed hoff => simp [hon] at hoff
  | refused hreal => exact absurd hdone hreal
  | deregistered u hreal hu =>
      have hresolved := SameAccounts.getCurrentTenantId env u
      have huncounted : u.proc.intercept =
          (uncountOwnMr length (hooksInitOnce env v).proc).intercept := by
        rw [hu]
        exact uncountOwnMr_congr hlimited.intercept
      exact ⟨hreal, ((SameAccounts.updateTenantResourceCount _ .mr (-1) _).intercept.trans
        hresolved.intercept).trans huncounted⟩

/-- Initialization changes none of the counters. -/
theorem value_hooksInitOnce (c : Counter) :
    c.value (hooksInitOnce env v).proc.intercept = c.value v.proc.intercept := by
  obtain ⟨hqp, hmr, hmemory⟩ := hooksInitOnce_counters env v
  cases c with
  | qp => exact congrArg UInt32.toNat hqp
  | mr => exact congrArg UInt32.toNat hmr
  | bytes => exact congrArg UInt64.toNat hmemory

end Hooks

/-! ## The counters and the MRs -/

/-- What the live MRs add up to in a counter. -/
def MrProcess.total (c : Counter) (w : MrProcess) : Nat :=
  ∑ mr ∈ w.live, c.size (.mr mr (w.length mr))

theorem total_mr (w : MrProcess) : w.total .mr = w.live.card := by
  simp [MrProcess.total, Counter.size, Object.IsMr]

theorem total_register {w : MrProcess} {mr : Nat} (hmr : mr ∉ w.live) (c : Counter) (v : View)
    (length : UInt64) :
    (MrProcess.mk v (insert mr w.live) (Function.update w.length mr length)).total c =
      w.total c + c.size (.mr mr length) := by
  have hothers : ∑ x ∈ w.live, c.size (.mr x (Function.update w.length mr length x)) =
      w.total c := by
    apply Finset.sum_congr rfl
    intro x hx
    rw [Function.update_of_ne (ne_of_mem_of_not_mem hx hmr)]
  show ∑ x ∈ insert mr w.live, c.size (.mr x (Function.update w.length mr length x)) = _
  rw [Finset.sum_insert hmr, Function.update_self, hothers, Nat.add_comm]

theorem total_deregister {w : MrProcess} {mr : Nat} (hmr : mr ∈ w.live) (c : Counter) (v : View) :
    w.total c = (MrProcess.mk v (w.live.erase mr) w.length).total c +
      c.size (.mr mr (w.length mr)) :=
  (Finset.sum_erase_add w.live _ hmr).symm

/-- What an event can do: nothing to the counters and the MRs, or register an MR
and count it, or deregister one and uncount it.  The counters are those of the
process after its initialization. -/
inductive EventOutcome (w : MrProcess) : MrEvent → MrProcess → Prop
  | unchanged {e : MrEvent} {v : View} : (∀ config, PassesControl config w e) →
      (∀ c : Counter, c.value v.proc.intercept = c.value w.view.proc.intercept) →
      EventOutcome w e { w with view := v }
  | registered {env : HookEnv} {length : UInt64} {real : Option Nat} {mr : Nat} {v : View}
      {p : Process} : Grants env length real w.view → mr ∉ w.live →
      (∀ c : Counter, c.value p.intercept = c.value w.view.proc.intercept) →
      v.proc.intercept = (countOwnMr length p).intercept →
      EventOutcome w (.call (.regMr env length real))
        ⟨v, insert mr w.live, Function.update w.length mr length⟩
  | deregistered {env : HookEnv} {mr : Nat} {real : Int} {v : View} {p : Process} :
      mr ∈ w.live → (∀ c : Counter, c.value p.intercept = c.value w.view.proc.intercept) →
      v.proc.intercept = (uncountOwnMr (w.length mr) p).intercept →
      EventOutcome w (.call (.deregMr env mr real)) ⟨v, w.live.erase mr, w.length⟩

theorem after_outcome {config : FullConfig} {w : MrProcess} {e : MrEvent}
    (h : Permitted config w e) : EventOutcome w e (w.after e) := by
  cases e with
  | others shm tenant => exact .unchanged (fun _ => trivial) fun _ => rfl
  | call call =>
      cases call with
      | regMr env length real =>
          obtain ⟨⟨hon, -⟩, hfresh⟩ := h
          cases hobject : (ibvRegMr env length real w.view).1.object with
          | none =>
              have hsame := (ibvRegMr_failed hobject).intercept
              rw [MrProcess.after, hobject]
              refine .unchanged
                (fun _ hgranted => absurd hobject ((grants_iff hon).mp hgranted)) fun c => ?_
              rw [hsame, value_hooksInitOnce]
          | some mr =>
              have hgranted : (ibvRegMr env length real w.view).1.object ≠ none := by
                rw [hobject]
                exact Option.some_ne_none mr
              rw [MrProcess.after, hobject]
              exact .registered ((grants_iff hon).mpr hgranted)
                (hfresh mr (ibvRegMr_object hobject)) value_hooksInitOnce
                (ibvRegMr_counts hon hgranted)
      | deregMr env mr real =>
          obtain ⟨⟨hon, -⟩, hexists⟩ := h
          rw [MrProcess.after]
          by_cases hrc : (ibvDeregMr env (w.length mr) real w.view).1.rc = 0
          · obtain ⟨hreal, hintercept⟩ := ibvDeregMr_uncounts hon hrc
            simp only [if_pos hrc]
            exact .deregistered (hexists hreal) value_hooksInitOnce hintercept
          · have hsame := (ibvDeregMr_failed hrc).intercept
            simp only [if_neg hrc]
            refine .unchanged (fun config => trivial) fun c => ?_
            rw [hsame, value_hooksInitOnce]

/-! ## The limits -/

/-- The limit that the configuration sets for a counter of MRs. -/
def limit (config : FullConfig) : Counter → Nat
  | .qp => 0
  | .mr => config.maxMrPerProcess.toNat
  | .bytes => config.maxMemoryPerProcess.toNat

theorem limit_lt (config : FullConfig) (c : Counter) : limit config c < c.modulus := by
  cases c with
  | qp => exact Nat.two_pow_pos 32
  | mr => exact config.maxMrPerProcess.toNat_lt
  | bytes => exact config.maxMemoryPerProcess.toNat_lt

theorem withinControl_iff {config : FullConfig} {w : MrProcess} :
    WithinControl config w ↔ ∀ c : Counter, c ≠ .qp → w.total c ≤ limit config c := by
  constructor
  · rintro ⟨hmr, hbytes⟩ c hc
    cases c with
    | qp => exact absurd rfl hc
    | mr => exact (total_mr w).trans_le hmr
    | bytes => exact hbytes
  · intro h
    exact ⟨(total_mr w).symm.trans_le (h .mr nofun), h .bytes nofun⟩

theorem passesControl_iff {config : FullConfig} {w : MrProcess} {env : HookEnv} {length : UInt64}
    {real : Option Nat} (hgranted : Grants env length real w.view) (mr : Nat) :
    PassesControl config w (.call (.regMr env length real)) ↔
      ∀ c : Counter, c ≠ .qp →
        c.value w.view.proc.intercept + c.size (.mr mr length) ≤ limit config c := by
  constructor
  · intro h c hc
    obtain ⟨hmr, hbytes⟩ := h hgranted
    cases c with
    | qp => exact absurd rfl hc
    | mr => exact UInt32.lt_iff_toNat_lt.mp hmr
    | bytes => exact hbytes
  · intro h _
    exact ⟨UInt32.lt_iff_toNat_lt.mpr (h .mr nofun), h .bytes nofun⟩

/-- The counters of MRs are exact. -/
def Exact (w : MrProcess) : Prop :=
  ∀ c : Counter, c ≠ .qp → c.value w.view.proc.intercept = w.total c

section Steps

variable {config : FullConfig} {w w' : MrProcess} {e : MrEvent}

/-- An event that passes the check keeps the counters exact: nothing wraps. -/
theorem EventOutcome.exact (h : EventOutcome w e w') (hexact : Exact w)
    (hpasses : PassesControl config w e) : Exact w' := by
  intro c hc
  cases h with
  | unchanged _ hvalue => exact (hvalue c).trans (hexact c hc)
  | @registered env length real mr v p hgranted hmr hvalue hcount =>
      have hroom := (passesControl_iff hgranted mr).mp hpasses c hc
      have hwrap : c.value p.intercept + c.size (.mr mr length) < c.modulus := by
        rw [hvalue c]
        exact hroom.trans_lt (limit_lt config c)
      rw [total_register hmr c v length, ← hexact c hc, ← hvalue c]
      show c.value v.proc.intercept = _
      rw [hcount, value_countOwnMr mr length hwrap]
  | @deregistered env mr real v p hmr hvalue hcount =>
      show c.value v.proc.intercept = _
      rw [hcount]
      apply value_uncountOwnMr mr
      rw [hvalue c, hexact c hc]
      exact total_deregister hmr c v

/-- While the counters are exact and the limits hold, an event keeps the limits
exactly if it would have passed the check. -/
theorem within_after_iff (h : EventOutcome w e w') (hexact : Exact w)
    (hwithin : WithinControl config w) : WithinControl config w' ↔ PassesControl config w e := by
  rw [withinControl_iff] at hwithin ⊢
  cases h with
  | unchanged hpasses _ => exact ⟨fun _ => hpasses config, fun _ => hwithin⟩
  | @registered env length real mr v p hgranted hmr _ _ =>
      rw [passesControl_iff hgranted mr]
      refine forall₂_congr fun c hc => ?_
      rw [total_register hmr c v length, hexact c hc]
  | @deregistered env mr real v p hmr _ _ =>
      refine ⟨fun _ => trivial, fun _ c hc => ?_⟩
      have htotal := total_deregister hmr c v
      have hle := hwithin c hc
      omega

end Steps

/-! ## Runs -/

/-- A process that has registered nothing. -/
structure NoMrs (w : MrProcess) : Prop where
  live : w.live = ∅
  mrCount : w.view.proc.intercept.mrCount = 0
  memoryUsed : w.view.proc.intercept.memoryUsed = 0

theorem NoMrs.exact {w : MrProcess} (h : NoMrs w) : Exact w := by
  intro c hc
  have htotal : w.total c = 0 := by
    rw [MrProcess.total, h.live, Finset.sum_empty]
  rw [htotal]
  cases c with
  | qp => exact absurd rfl hc
  | mr => exact congrArg UInt32.toNat h.mrCount
  | bytes => exact congrArg UInt64.toNat h.memoryUsed

theorem NoMrs.within {w : MrProcess} (h : NoMrs w) (config : FullConfig) :
    WithinControl config w := by
  constructor
  · rw [h.live, Finset.card_empty]
    exact Nat.zero_le _
  · rw [MrProcess.registered, h.live, Finset.sum_empty]
    exact Nat.zero_le _

/-- In every run in which the registrations that are granted would have passed the
check, the process stays within both limits. -/
theorem mr_control_of_checked {config : FullConfig} {w₀ w : MrProcess} {events : List MrEvent}
    (hstart : NoMrs w₀)
    (hrun : Run (fun w e w' => MrStep config w e w' ∧ PassesControl config w e) w₀ events w) :
    w.live.card ≤ config.maxMrPerProcess.toNat ∧
      ∑ mr ∈ w.live, (w.length mr).toNat ≤ config.maxMemoryPerProcess.toNat := by
  have hinvariant : Exact w ∧ WithinControl config w := by
    refine Run.invariant (P := fun w => Exact w ∧ WithinControl config w)
      ⟨hstart.exact, hstart.within config⟩ ?_ hrun
    rintro w₁ e w₂ ⟨hexact, hwithin⟩ ⟨⟨-, hpermitted, rfl⟩, hpasses⟩
    have houtcome := after_outcome hpermitted
    exact ⟨houtcome.exact hexact hpasses, (within_after_iff houtcome hexact hwithin).mpr hpasses⟩
  exact hinvariant.2

/-- MR control is on, for one MR and 4096 bytes. -/
def onePageControl : FullConfig :=
  { FullConfig.default with
    enableMrControl := true
    maxMrPerProcess := 1
    maxMemoryPerProcess := 4096 }

/-- A process without a tenant, before its first registration. -/
def plainStart : MrProcess where
  view := ⟨plainProcess 100, SharedMemory.zeroed, SharedMemoryTenant.zeroed⟩
  live := ∅
  length := fun _ => 0

theorem plainStart_noMrs : NoMrs plainStart := ⟨rfl, rfl, rfl⟩

/-- MR number `mr` of 4096 bytes is registered. -/
def registerPage (mr : Nat) : MrEvent := .call (.regMr quietEnv 4096 (some mr))

theorem registerPage_first :
    MrStep onePageControl plainStart (registerPage 1) (plainStart.after (registerPage 1)) := by
  refine ⟨rfl, ⟨⟨rfl, rfl⟩, ?_⟩, rfl⟩
  intro mr _
  exact Finset.notMem_empty mr

/-- MR number `mr` is deregistered. -/
def deregisterPage (mr : Nat) : MrEvent := .call (.deregMr quietEnv mr 0)

/-- A page has been registered and deregistered. -/
def afterPage : MrProcess := (plainStart.after (registerPage 1)).after (deregisterPage 1)

/-- Then another one is registered. -/
theorem mr_control_one_page :
    ∃ w, Run (MrStep onePageControl) plainStart
        [registerPage 1, deregisterPage 1, registerPage 2] w ∧
      w.live = {2} ∧ w.live.card ≤ 1 ∧ ∑ mr ∈ w.live, (w.length mr).toNat ≤ 4096 := by
  have hderegister : MrStep onePageControl (plainStart.after (registerPage 1)) (deregisterPage 1)
      afterPage := ⟨rfl, ⟨⟨rfl, rfl⟩, fun _ => Finset.mem_insert_self 1 ∅⟩, rfl⟩
  have hsecond : MrStep onePageControl afterPage (registerPage 2)
      (afterPage.after (registerPage 2)) := by
    refine ⟨rfl, ⟨⟨rfl, rfl⟩, fun mr _ => ?_⟩, rfl⟩
    rw [show afterPage.live = ∅ from rfl]
    exact Finset.notMem_empty mr
  have hrun : Run (fun w e w' => MrStep onePageControl w e w' ∧ PassesControl onePageControl w e)
      plainStart [registerPage 1, deregisterPage 1, registerPage 2] _ :=
    .snoc (.snoc (.snoc .start ⟨registerPage_first, fun _ => ⟨by decide, by decide⟩⟩)
      ⟨hderegister, trivial⟩) ⟨hsecond, fun _ => ⟨by decide +kernel, by decide +kernel⟩⟩
  exact ⟨_, hrun.mono fun _ _ _ h => h.1, rfl, mr_control_of_checked plainStart_noMrs hrun⟩

/-- A second registration is granted all the same, and both limits are
exceeded. -/
theorem second_page_granted :
    ∃ w, Run (MrStep onePageControl) plainStart [registerPage 1, registerPage 2] w ∧
      NoMrs plainStart ∧ w.live.card = 2 ∧
      ∑ mr ∈ w.live, (w.length mr).toNat = 8192 ∧ ¬WithinControl onePageControl w := by
  have hsecond : MrStep onePageControl (plainStart.after (registerPage 1)) (registerPage 2)
      ((plainStart.after (registerPage 1)).after (registerPage 2)) := by
    refine ⟨rfl, ⟨⟨rfl, rfl⟩, ?_⟩, rfl⟩
    intro mr hmr
    obtain rfl : 2 = mr := Option.some.inj hmr
    show 2 ∉ (insert 1 ∅ : Finset Nat)
    decide
  have hcard : ((plainStart.after (registerPage 1)).after (registerPage 2)).live.card = 2 := by
    show (insert 2 (insert 1 ∅) : Finset Nat).card = 2
    decide
  refine ⟨_, .snoc (.snoc .start registerPage_first) hsecond, plainStart_noMrs, hcard, ?_, ?_⟩
  · have hlength : ((plainStart.after (registerPage 1)).after (registerPage 2)).length =
        Function.update (Function.update (fun _ => (0 : UInt64)) 1 4096) 2 4096 := rfl
    rw [hlength]
    show ∑ mr ∈ (insert 2 (insert 1 ∅) : Finset Nat), _ = 8192
    decide
  · intro hwithin
    have hle := hwithin.1
    rw [hcard] at hle
    exact absurd hle (by decide)

end MtRdma.Ports.MrControl
