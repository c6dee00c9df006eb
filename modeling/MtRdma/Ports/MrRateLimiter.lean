import Mathlib.Tactic.Ring
import MtRdma.Verified.FixedWindow
import MtRdma.Ports.HookFrame

/-!
# The MR rate limiter (`check_mr_rate_limit`)

The hooks limit MR operations by a fixed window.  The window starts at the
second clock reading of the call that found the old one over; the test for
"no window yet" is that the recorded start is the zero time.

With a clock that runs and is not at zero the calls are those of the limiter
of `FixedWindow` (`limiter_run`), so its bounds hold.  The number of operations
per window is rounded down but never below one; the configured rate is
respected exactly when a window is long enough for one operation.
-/

namespace MtRdma.Ports.MrRateLimiter

open Verified.Runs
open Verified.FixedWindow
open RdmaHooks

variable {p : Process} {envs : List HookEnv}

/-! ## The configuration -/

/-- The limiter is switched on and has a rate. -/
structure RateLimited (config : InterceptConfig) : Prop where
  enabled : config.enableMrRateLimit = true
  rate_pos : 0 < config.maxMrOpsPerSec

/-- `max_mr_ops_per_sec`. -/
def opsPerSec (config : InterceptConfig) : Nat := config.maxMrOpsPerSec.toNat

/-- The window in milliseconds, one second if none is set. -/
def windowLength (config : InterceptConfig) : Nat :=
  if config.mrRateLimitWindowMs = 0 then 1000 else config.mrRateLimitWindowMs.toNat

/-- What a window has room for, at least one operation. -/
def opsPerWindow (config : InterceptConfig) : Nat :=
  max 1 (opsPerSec config * windowLength config / 1000)

theorem mrWindowMs_toNat (config : InterceptConfig) :
    (mrWindowMs config).toUInt64.toNat = windowLength config := by
  unfold mrWindowMs windowLength
  rw [UInt32.toNat_toUInt64]
  by_cases h : config.mrRateLimitWindowMs = 0
  · simp [h]
  · rw [if_pos (UInt32.pos_iff_ne_zero.mpr h), if_neg h]

theorem windowLength_pos (config : InterceptConfig) : 0 < windowLength config := by
  unfold windowLength
  split
  · decide
  · rename_i h
    exact Nat.pos_of_ne_zero fun h0 => h (UInt32.toNat_inj.mp h0)

theorem opsPerWindow_pos (config : InterceptConfig) : 0 < opsPerWindow config :=
  Nat.lt_of_lt_of_le Nat.zero_lt_one (Nat.le_max_left _ _)

/-- The product of rate and window fits into 64 bits. -/
theorem rate_mul_window (config : InterceptConfig) :
    (config.maxMrOpsPerSec.toUInt64 * (mrWindowMs config).toUInt64).toNat =
      opsPerSec config * windowLength config := by
  have hrate : config.maxMrOpsPerSec.toUInt64.toNat < 2 ^ 32 := by
    rw [UInt32.toNat_toUInt64]
    exact config.maxMrOpsPerSec.toNat_lt
  have hwindow : (mrWindowMs config).toUInt64.toNat < 2 ^ 32 := by
    rw [UInt32.toNat_toUInt64]
    exact (mrWindowMs config).toNat_lt
  have hprod : config.maxMrOpsPerSec.toUInt64.toNat * (mrWindowMs config).toUInt64.toNat <
      2 ^ 32 * 2 ^ 32 := Nat.mul_lt_mul'' hrate hwindow
  rw [UInt64.toNat_mul, Nat.mod_eq_of_lt (by simpa using hprod), mrWindowMs_toNat,
    UInt32.toNat_toUInt64]
  rfl

theorem maxMrOpsInWindow_toNat (config : InterceptConfig) :
    (maxMrOpsInWindow config).toNat = opsPerWindow config := by
  have hquotient : (config.maxMrOpsPerSec.toUInt64 * (mrWindowMs config).toUInt64 /
      1000).toNat = opsPerSec config * windowLength config / 1000 := by
    rw [UInt64.toNat_div, rate_mul_window]
    rfl
  unfold maxMrOpsInWindow opsPerWindow
  simp only [UInt64.lt_iff_toNat_lt, hquotient]
  split
  · rename_i h
    simp only [UInt64.toNat_one] at h ⊢
    omega
  · rename_i h
    rw [hquotient]
    simp only [UInt64.toNat_one] at h
    omega

/-! ## The calls of one process -/

/-- The call finds no window, or one that is over. -/
def WindowDue (env : HookEnv) (p : Process) : Prop :=
  (p.mrRateWindowStart.sec = 0 ∧ p.mrRateWindowStart.nsec = 0) ∨
    (mrWindowMs p.intercept.config).toUInt64 ≤ env.clock.ms - p.mrRateWindowStart.ms

instance (env : HookEnv) (p : Process) : Decidable (WindowDue env p) :=
  inferInstanceAs (Decidable (_ ∨ _))

/-- The clock readings a call takes: a second one where it starts a window. -/
def readings (env : HookEnv) (p : Process) : List Timespec :=
  env.clock :: if WindowDue env p then [env.clockAgain] else []

/-- What is recorded of a call. -/
def request (env : HookEnv) (p : Process) : Request :=
  ⟨env.clock.ms.toNat, decide (WindowDue env p), (checkMrRateLimit env p).1⟩

/-- All clock readings of successive calls. -/
def clockReadings (p : Process) : List HookEnv → List Timespec
  | [] => []
  | env :: rest => readings env p ++ clockReadings (checkMrRateLimit env p).2 rest

/-- The records of successive calls. -/
def rateCalls (p : Process) : List HookEnv → List Request
  | [] => []
  | env :: rest => request env p :: rateCalls (checkMrRateLimit env p).2 rest

/-- The readings do not decrease. -/
def ClockOrdered (times : List Timespec) : Prop :=
  times.Pairwise fun a b => a.ms ≤ b.ms

/-- No reading is the zero time. -/
def ClockStarted (times : List Timespec) : Prop :=
  ∀ t ∈ times, t ≠ ⟨0, 0⟩

/-! ## What one call does -/

section Call

variable {env : HookEnv} {p : Process}

/-- A call that starts a window is allowed, and is the first one of it. -/
theorem checkMrRateLimit_due (hon : RateLimited p.intercept.config) (hdue : WindowDue env p) :
    checkMrRateLimit env p =
      (true, { p with mrRateWindowStart := env.clockAgain, mrOpCountInWindow := 1 }) := by
  have hroom : (0 : UInt64) < maxMrOpsInWindow p.intercept.config := by
    rw [UInt64.lt_iff_toNat_lt, maxMrOpsInWindow_toNat]
    exact opsPerWindow_pos p.intercept.config
  have hrenew : renewMrWindow env p =
      { p with mrRateWindowStart := env.clockAgain, mrOpCountInWindow := 0 } := if_pos hdue
  unfold checkMrRateLimit
  rw [if_neg (by simp [hon.enabled, (UInt32.pos_iff_ne_zero.mp hon.rate_pos)]), hrenew]
  simp only [if_pos hroom]
  rfl

/-- A call in a window that is not over is allowed as long as there is room. -/
theorem checkMrRateLimit_not_due (hon : RateLimited p.intercept.config)
    (hdue : ¬WindowDue env p) :
    checkMrRateLimit env p =
      if p.mrOpCountInWindow < maxMrOpsInWindow p.intercept.config then
        (true, { p with mrOpCountInWindow := p.mrOpCountInWindow + 1 })
      else (false, p) := by
  have hrenew : renewMrWindow env p = p := if_neg hdue
  unfold checkMrRateLimit
  rw [if_neg (by simp [hon.enabled, (UInt32.pos_iff_ne_zero.mp hon.rate_pos)]), hrenew]

theorem checkMrRateLimit_config (env : HookEnv) (p : Process) :
    (checkMrRateLimit env p).2.intercept.config = p.intercept.config := by
  obtain ⟨start, count, hview⟩ := checkMrRateLimit_view env p
  rw [hview]

end Call

/-! ## The calls are those of a fixed-window limiter -/

/-- The limiter that the statics of a process amount to, after the clock has
shown `last`. -/
structure Shows (p : Process) (last : Nat) (s : Limiter) : Prop where
  last_eq : s.last = last
  fresh : p.mrRateWindowStart = ⟨0, 0⟩ → s.window = none
  running : p.mrRateWindowStart ≠ ⟨0, 0⟩ →
    s.window = some ⟨p.mrRateWindowStart.ms.toNat, p.mrOpCountInWindow.toNat⟩ ∧
      p.mrRateWindowStart.ms.toNat ≤ last

/-- In a running window the test of the call is the comparison of the
times. -/
theorem windowDue_iff {env : HookEnv} (hstart : p.mrRateWindowStart ≠ ⟨0, 0⟩)
    (hle : p.mrRateWindowStart.ms.toNat ≤ env.clock.ms.toNat) :
    WindowDue env p ↔
      p.mrRateWindowStart.ms.toNat + windowLength p.intercept.config ≤ env.clock.ms.toNat := by
  have hnot : ¬(p.mrRateWindowStart.sec = 0 ∧ p.mrRateWindowStart.nsec = 0) := by
    rintro ⟨hsec, hnsec⟩
    have hmk : p.mrRateWindowStart =
        ⟨p.mrRateWindowStart.sec, p.mrRateWindowStart.nsec⟩ := rfl
    exact hstart (by rw [hmk, hsec, hnsec])
  have hsub : (env.clock.ms - p.mrRateWindowStart.ms).toNat =
      env.clock.ms.toNat - p.mrRateWindowStart.ms.toNat :=
    UInt64.toNat_sub_of_le _ _ (UInt64.le_iff_toNat_le.mpr hle)
  unfold WindowDue
  rw [or_iff_right hnot, UInt64.le_iff_toNat_le, mrWindowMs_toNat, hsub]
  omega

section Simulation

variable {env : HookEnv} {p : Process} {last : Nat} {s : Limiter}

/-- A call that starts a window. -/
theorem Shows.renew (h : Shows p last s) (hon : RateLimited p.intercept.config)
    (hlast : last ≤ env.clock.ms.toNat) (hdue : WindowDue env p)
    (hagain : env.clock.ms ≤ env.clockAgain.ms) (hnonzero : env.clockAgain ≠ ⟨0, 0⟩) :
    ∃ s', Step (windowLength p.intercept.config) (opsPerWindow p.intercept.config) s
        (request env p) s' ∧
      Shows (checkMrRateLimit env p).2 env.clockAgain.ms.toNat s' := by
  refine ⟨⟨env.clockAgain.ms.toNat, some ⟨env.clockAgain.ms.toNat, 1⟩⟩, ?_, ?_⟩
  · unfold request
    rw [checkMrRateLimit_due hon hdue, decide_eq_true hdue]
    refine .renew (by rw [h.last_eq]; exact hlast) ?_ (UInt64.le_iff_toNat_le.mp hagain)
    intro w hw
    by_cases hstart : p.mrRateWindowStart = ⟨0, 0⟩
    · rw [h.fresh hstart] at hw
      cases hw
    · obtain ⟨hwindow, hle⟩ := h.running hstart
      rw [hwindow] at hw
      cases hw
      exact (windowDue_iff hstart (Nat.le_trans hle hlast)).mp hdue
  · rw [checkMrRateLimit_due hon hdue]
    exact ⟨rfl, fun hzero => absurd hzero hnonzero, fun _ => ⟨rfl, Nat.le_refl _⟩⟩

/-- A call in the current window. -/
theorem Shows.count (h : Shows p last s) (hon : RateLimited p.intercept.config)
    (hlast : last ≤ env.clock.ms.toNat) (hdue : ¬WindowDue env p) :
    ∃ s', Step (windowLength p.intercept.config) (opsPerWindow p.intercept.config) s
        (request env p) s' ∧
      Shows (checkMrRateLimit env p).2 env.clock.ms.toNat s' := by
  have hstart : p.mrRateWindowStart ≠ ⟨0, 0⟩ := by
    intro hzero
    exact hdue (.inl (by simp [hzero]))
  obtain ⟨hwindow, hle⟩ := h.running hstart
  have hnot := (windowDue_iff hstart (Nat.le_trans hle hlast)).not.mp hdue
  have hlast' : s.last ≤ env.clock.ms.toNat := by rw [h.last_eq]; exact hlast
  have hroom : p.mrOpCountInWindow < maxMrOpsInWindow p.intercept.config ↔
      p.mrOpCountInWindow.toNat < opsPerWindow p.intercept.config := by
    rw [UInt64.lt_iff_toNat_lt, maxMrOpsInWindow_toNat]
  unfold request
  rw [checkMrRateLimit_not_due hon hdue, decide_eq_false hdue]
  by_cases hcount : p.mrOpCountInWindow < maxMrOpsInWindow p.intercept.config
  · rw [if_pos hcount]
    have hsucc : (p.mrOpCountInWindow + 1).toNat = p.mrOpCountInWindow.toNat + 1 := by
      have hlt := UInt64.lt_iff_toNat_lt.mp hcount
      have hmax := (maxMrOpsInWindow p.intercept.config).toNat_lt
      rw [UInt64.toNat_add, UInt64.toNat_one]
      omega
    refine ⟨_, .grant hlast' hwindow (Nat.not_le.mp hnot) (hroom.mp hcount), rfl,
      fun hzero => absurd hzero hstart, fun _ => ⟨?_, Nat.le_trans hle hlast⟩⟩
    rw [hsucc]
  · rw [if_neg hcount]
    exact ⟨_, .refuse hlast' hwindow (Nat.not_le.mp hnot)
      (Nat.not_lt.mp (hroom.not.mp hcount)), rfl, fun hzero => absurd hzero hstart,
      fun _ => ⟨rfl, Nat.le_trans hle hlast⟩⟩

/-- **Successive calls are a run of the limiter.** -/
theorem Shows.run (h : Shows p last s) (hon : RateLimited p.intercept.config)
    (hordered : ClockOrdered (clockReadings p envs))
    (hstarted : ClockStarted (clockReadings p envs))
    (hlast : ∀ t ∈ clockReadings p envs, last ≤ t.ms.toNat) :
    ∃ s', Run (Step (windowLength p.intercept.config) (opsPerWindow p.intercept.config)) s
      (rateCalls p envs) s' := by
  induction envs generalizing p last s with
  | nil => exact ⟨s, .start⟩
  | cons env rest ih =>
      have hconfig := checkMrRateLimit_config env p
      obtain ⟨hcall, hrest, hacross⟩ := List.pairwise_append.mp hordered
      have hfirst : env.clock ∈ clockReadings p (env :: rest) :=
        List.mem_append_left _ List.mem_cons_self
      -- the call is one step, after which the clock has shown its last reading
      obtain ⟨t, ht, s₁, hstep, hshows⟩ : ∃ t ∈ readings env p, ∃ s₁,
          Step (windowLength p.intercept.config) (opsPerWindow p.intercept.config) s
            (request env p) s₁ ∧ Shows (checkMrRateLimit env p).2 t.ms.toNat s₁ := by
        by_cases hdue : WindowDue env p
        · have hreadings : readings env p = [env.clock, env.clockAgain] := by
            unfold readings
            rw [if_pos hdue]
          have hmem : env.clockAgain ∈ readings env p := by simp [hreadings]
          rw [hreadings] at hcall
          exact ⟨env.clockAgain, hmem, h.renew hon (hlast _ hfirst) hdue
            (List.rel_of_pairwise_cons hcall List.mem_cons_self)
            (hstarted _ (List.mem_append_left _ hmem))⟩
        · exact ⟨env.clock, List.mem_cons_self, h.count hon (hlast _ hfirst) hdue⟩
      obtain ⟨s', hrun⟩ := ih hshows (hconfig.symm ▸ hon) hrest
        (fun t' ht' => hstarted t' (List.mem_append_right _ ht'))
        (fun t' ht' => UInt64.le_iff_toNat_le.mp (hacross t ht t' ht'))
      rw [hconfig] at hrun
      exact ⟨s', hrun.cons hstep⟩

end Simulation

/-- A process that has not used the limiter. -/
def Unused (p : Process) : Prop := p.mrRateWindowStart = ⟨0, 0⟩

theorem limiter_run (hon : RateLimited p.intercept.config) (hunused : Unused p)
    (hordered : ClockOrdered (clockReadings p envs))
    (hstarted : ClockStarted (clockReadings p envs)) :
    ∃ s, Run (Step (windowLength p.intercept.config) (opsPerWindow p.intercept.config)) .idle
      (rateCalls p envs) s := by
  have hshows : Shows p 0 .idle := ⟨rfl, fun _ => rfl, fun hne => absurd hunused hne⟩
  exact hshows.run hon hordered hstarted fun _ _ => Nat.zero_le _

/-! ## Processes and clocks -/

/-- The reading of a clock that shows `ms` milliseconds. -/
def timeOf (ms : Nat) : Timespec :=
  ⟨UInt64.ofNat (ms / 1000), UInt64.ofNat (ms % 1000 * 1000000)⟩

/-- A call during which the clock stands at `ms`. -/
def callAt (ms : Nat) : HookEnv :=
  { quietEnv with clock := timeOf ms, clockAgain := timeOf ms }

/-- A process with a limit, before its first call. -/
def limitedProcess (config : InterceptConfig) : Process :=
  { Process.start 100 with intercept := ⟨true, config, 0, 0, 0⟩ }

/-- `rate` operations per second in windows of `window` milliseconds. -/
def rateConfig (rate window : UInt32) : InterceptConfig :=
  { InterceptConfig.default with
    enableMrRateLimit := true
    maxMrOpsPerSec := rate
    mrRateLimitWindowMs := window }

/-! ## The bounds -/

/-- The operations allowed in calls whose first reading is from `lo` to
`hi`. -/
def allowedWithin (lo hi : Nat) (calls : List Request) : Nat :=
  calls.countP fun c => c.granted && decide (lo ≤ c.time) && decide (c.time ≤ hi)

theorem allowedWithin_eq (lo hi : Nat) (calls : List Request) :
    allowedWithin lo hi calls = grantedIn (within lo hi calls) := by
  unfold allowedWithin grantedIn within
  rw [List.countP_filter]
  simp only [Bool.and_assoc]

/-- **What the limiter guarantees.**  Of the calls of a process whose clock
runs, at most `M` are allowed between two starts of a window and at most
`2 * M` in any `W` milliseconds; a call is refused only when its window has
seen `M` allowed ones; and the product of rate and window does not wrap. -/
theorem rate_limiter_bounds (p : Process) (envs : List HookEnv)
    (hon : RateLimited p.intercept.config) (hunused : Unused p)
    (hordered : ClockOrdered (clockReadings p envs))
    (hstarted : ClockStarted (clockReadings p envs)) :
    let r := p.intercept.config.maxMrOpsPerSec.toNat
    let W := if p.intercept.config.mrRateLimitWindowMs = 0 then 1000
      else p.intercept.config.mrRateLimitWindowMs.toNat
    let M := max 1 (r * W / 1000)
    let calls := rateCalls p envs
    (∀ before window after, calls = before ++ window ++ after →
      (∀ c ∈ window.tail, c.renewed = false) → window.countP (·.granted) ≤ M) ∧
    (∀ t, allowedWithin t (t + W - 1) calls ≤ 2 * M) ∧
    (∀ before c after, calls = before ++ c :: after → c.granted = false →
      (currentWindow (before ++ [c])).countP (·.granted) = M) ∧
    (p.intercept.config.maxMrOpsPerSec.toUInt64 *
      (mrWindowMs p.intercept.config).toUInt64).toNat = r * W := by
  intro r W M calls
  obtain ⟨s, hrun⟩ := limiter_run hon hunused hordered hstarted
  have hM : 0 < M := opsPerWindow_pos p.intercept.config
  have hW : 0 < W := windowLength_pos p.intercept.config
  refine ⟨?_, ?_, ?_, rate_mul_window p.intercept.config⟩
  · intro before window after hsplit hone
    exact granted_window_le hM hrun hsplit hone
  · intro t
    have hspan := granted_span_le hM hW hrun t (W - 1)
    have hnone : (W - 1) / W = 0 := Nat.div_eq_of_lt (by omega)
    rw [hnone] at hspan
    rw [allowedWithin_eq, Nat.add_sub_assoc hW]
    calc grantedIn (within t (t + (W - 1)) calls) ≤ M * (0 + 2) := hspan
      _ = 2 * M := Nat.mul_comm M 2
  · intro before c after hsplit hrefused
    exact granted_of_refused hM hrun hsplit hrefused

/-- Two operations per second: the third call within a second is refused. -/
theorem rate_limiter_bounds_at_three :
    let p := limitedProcess (rateConfig 2 0)
    let envs := [callAt 1, callAt 2, callAt 3]
    RateLimited p.intercept.config ∧ Unused p ∧ ClockOrdered (clockReadings p envs) ∧
      ClockStarted (clockReadings p envs) ∧
      rateCalls p envs = [⟨1, true, true⟩, ⟨2, false, true⟩, ⟨3, false, false⟩] ∧
      allowedWithin 0 999 (rateCalls p envs) ≤ 4 :=
  have hon : RateLimited (limitedProcess (rateConfig 2 0)).intercept.config := ⟨rfl, by decide⟩
  have hordered : ClockOrdered (clockReadings (limitedProcess (rateConfig 2 0))
      [callAt 1, callAt 2, callAt 3]) := by unfold ClockOrdered; decide
  have hstarted : ClockStarted (clockReadings (limitedProcess (rateConfig 2 0))
      [callAt 1, callAt 2, callAt 3]) := by unfold ClockStarted; decide
  have hbounds := rate_limiter_bounds (limitedProcess (rateConfig 2 0))
    [callAt 1, callAt 2, callAt 3] hon rfl hordered hstarted
  ⟨hon, rfl, hordered, hstarted, by decide, hbounds.2.1 0⟩

/-! ## The configured rate -/

/-- If a window has room for one operation at the configured rate, a stretch of
`T` seconds sees no more than `r * T` operations and two windows' worth. -/
theorem allowed_le_of_window_fits (hon : RateLimited p.intercept.config) (hunused : Unused p)
    (hordered : ClockOrdered (clockReadings p envs))
    (hstarted : ClockStarted (clockReadings p envs))
    (hfits : 1000 ≤ opsPerSec p.intercept.config * windowLength p.intercept.config) (t T : Nat) :
    allowedWithin t (t + T * 1000) (rateCalls p envs) ≤ opsPerSec p.intercept.config * T +
      2 * ((opsPerSec p.intercept.config * windowLength p.intercept.config + 999) / 1000) := by
  obtain ⟨s, hrun⟩ := limiter_run hon hunused hordered hstarted
  have hspan := granted_span_le (opsPerWindow_pos p.intercept.config)
    (windowLength_pos p.intercept.config) hrun t (T * 1000)
  have hM : opsPerWindow p.intercept.config =
      opsPerSec p.intercept.config * windowLength p.intercept.config / 1000 := by
    unfold opsPerWindow
    omega
  rw [allowedWithin_eq]
  rw [hM] at hspan
  generalize opsPerSec p.intercept.config = r at hspan ⊢
  generalize windowLength p.intercept.config = W at hspan ⊢
  generalize hq : T * 1000 / W = q at hspan
  -- the whole windows of the stretch allow no more than the rate does
  have hwindows : r * W / 1000 * q ≤ r * T := by
    have hfloor : r * W / 1000 * 1000 ≤ r * W := Nat.div_mul_le_self _ _
    have hwhole : q * W ≤ T * 1000 := hq ▸ Nat.div_mul_le_self _ _
    have hscaled : r * W / 1000 * q * 1000 ≤ r * T * 1000 :=
      calc r * W / 1000 * q * 1000 = r * W / 1000 * 1000 * q := by ring
        _ ≤ r * W * q := Nat.mul_le_mul_right q hfloor
        _ = r * (q * W) := by ring
        _ ≤ r * (T * 1000) := Nat.mul_le_mul_left r hwhole
        _ = r * T * 1000 := by ring
    exact Nat.le_of_mul_le_mul_right hscaled (by decide)
  have hceil : r * W / 1000 ≤ (r * W + 999) / 1000 := Nat.div_le_div_right (by omega)
  have hsplit : r * W / 1000 * (q + 2) = r * W / 1000 * q + 2 * (r * W / 1000) := by ring
  omega

theorem timeOf_ms {ms : Nat} (h : ms < 2 ^ 63) : (timeOf ms).ms.toNat = ms := by
  have hsize : UInt64.size = 2 ^ 64 := rfl
  have hsec : (UInt64.ofNat (ms / 1000)).toNat = ms / 1000 :=
    UInt64.toNat_ofNat_of_lt' (by omega)
  have hnsec : (UInt64.ofNat (ms % 1000 * 1000000)).toNat = ms % 1000 * 1000000 :=
    UInt64.toNat_ofNat_of_lt' (by omega)
  unfold Timespec.ms timeOf
  rw [UInt64.toNat_add, UInt64.toNat_mul, UInt64.toNat_div, hsec, hnsec]
  simp only [UInt64.reduceToNat]
  omega

theorem timeOf_ne_zero {ms : Nat} (hpos : 0 < ms) (h : ms < 2 ^ 63) : timeOf ms ≠ ⟨0, 0⟩ := by
  intro hzero
  have hms := timeOf_ms h
  rw [hzero] at hms
  have h0 : (0 : Nat) = ms := hms
  omega

/-- The next call at `t` finds no window, or one that started `W` or more
before. -/
def TickDue (W t : Nat) (p : Process) : Prop :=
  Unused p ∨ ∃ t', 0 < t' ∧ t' + W ≤ t ∧ p.mrRateWindowStart = timeOf t'

theorem TickDue.windowDue {t : Nat} (ht : t < 2 ^ 63)
    (h : TickDue (windowLength p.intercept.config) t p) : WindowDue (callAt t) p := by
  rcases h with hunused | ⟨t', hpos, hle, hstart⟩
  · exact .inl (by rw [hunused]; exact ⟨rfl, rfl⟩)
  · have hms : p.mrRateWindowStart.ms.toNat = t' := by
      rw [hstart]
      exact timeOf_ms (by omega)
    have hclock : (callAt t).clock.ms.toNat = t := timeOf_ms ht
    have hne : p.mrRateWindowStart ≠ ⟨0, 0⟩ := by
      rw [hstart]
      exact timeOf_ne_zero hpos (by omega)
    rw [windowDue_iff hne (by omega), hms, hclock]
    exact hle

/-- Calls one window apart are all allowed. -/
theorem ticks_allowed {W : Nat} (hW : 0 < W) :
    ∀ (n t : Nat) (p : Process), RateLimited p.intercept.config →
      windowLength p.intercept.config = W → 0 < t → t + n * W < 2 ^ 63 → TickDue W t p →
      rateCalls p ((List.range' t n W).map callAt) =
          (List.range' t n W).map (⟨·, true, true⟩) ∧
        clockReadings p ((List.range' t n W).map callAt) =
          (List.range' t n W).flatMap fun t => [timeOf t, timeOf t] := by
  intro n
  induction n with
  | zero => intro t p _ _ _ _ _; exact ⟨rfl, rfl⟩
  | succ n ih =>
      intro t p hon hlength hpos hbound hdue
      have hsucc : (n + 1) * W = n * W + W := Nat.succ_mul n W
      have hwindow : WindowDue (callAt t) p := (hlength.symm ▸ hdue).windowDue (by omega)
      have hcall := checkMrRateLimit_due hon hwindow
      have htime : (callAt t).clock.ms.toNat = t := timeOf_ms (by omega)
      obtain ⟨hcalls, hreads⟩ := ih (t + W)
        { p with mrRateWindowStart := timeOf t, mrOpCountInWindow := 1 } hon hlength (by omega)
        (by omega) (.inr ⟨t, hpos, Nat.le_refl _, rfl⟩)
      rw [List.range'_succ, List.map_cons, List.map_cons, List.flatMap_cons]
      constructor
      · unfold rateCalls request
        rw [hcall, htime, decide_eq_true hwindow]
        exact congrArg _ hcalls
      · unfold clockReadings readings
        rw [hcall, if_pos hwindow]
        exact congrArg _ hreads

/-- A clock that ticks runs. -/
theorem ticks_clock {W : Nat} (hW : 0 < W) {n t : Nat} (hpos : 0 < t)
    (hbound : t + n * W < 2 ^ 63) :
    ClockOrdered ((List.range' t n W).flatMap fun t => [timeOf t, timeOf t]) ∧
      ClockStarted ((List.range' t n W).flatMap fun t => [timeOf t, timeOf t]) := by
  have hrange : ∀ u ∈ List.range' t n W, 0 < u ∧ u < 2 ^ 63 := by
    intro u hu
    obtain ⟨i, hi, rfl⟩ := List.mem_range'.mp hu
    have hle : W * i ≤ n * W := by
      rw [Nat.mul_comm n W]
      exact Nat.mul_le_mul_left W hi.le
    omega
  constructor
  · unfold ClockOrdered
    rw [List.pairwise_flatMap]
    refine ⟨fun u _ => by simp, (List.pairwise_lt_range' W hW).imp_of_mem ?_⟩
    intro u v hu hv huv x hx y hy
    have hms : ∀ w ∈ List.range' t n W, ∀ z ∈ [timeOf w, timeOf w], z.ms.toNat = w := by
      intro w hw z hz
      have heq : z = timeOf w := by simpa using hz
      rw [heq]
      exact timeOf_ms (hrange w hw).2
    rw [UInt64.le_iff_toNat_le, hms u hu x hx, hms v hv y hy]
    exact huv.le
  · intro z hz
    obtain ⟨u, hu, hmem⟩ := List.mem_flatMap.mp hz
    have heq : z = timeOf u := by simpa using hmem
    rw [heq]
    exact timeOf_ne_zero (hrange u hu).1 (hrange u hu).2

/-- Where a window is too short for one operation, one operation per window
exceeds the rate. -/
theorem ticks_exceed_rate {config : InterceptConfig} (hon : RateLimited config)
    (hshort : opsPerSec config * windowLength config < 1000) :
    ∃ envs : List HookEnv,
      ClockOrdered (clockReadings (limitedProcess config) envs) ∧
      ClockStarted (clockReadings (limitedProcess config) envs) ∧
      opsPerSec config * (2 * windowLength config) +
          2 * ((opsPerSec config * windowLength config + 999) / 1000) <
        allowedWithin 1 (1 + 2 * windowLength config * 1000)
          (rateCalls (limitedProcess config) envs) := by
  have hW := windowLength_pos config
  have hW32 : windowLength config < 2 ^ 32 := by
    rw [← mrWindowMs_toNat, UInt32.toNat_toUInt64]
    exact (mrWindowMs config).toNat_lt
  have hbound : 1 + 2001 * windowLength config < 2 ^ 63 := by omega
  obtain ⟨hcalls, hreads⟩ := ticks_allowed hW 2001 1 (limitedProcess config) hon rfl (by decide)
    hbound (.inl rfl)
  obtain ⟨hordered, hstarted⟩ := ticks_clock hW (n := 2001) (t := 1) (by decide) hbound
  refine ⟨(List.range' 1 2001 (windowLength config)).map callAt, hreads ▸ hordered,
    hreads ▸ hstarted, ?_⟩
  have hall : allowedWithin 1 (1 + 2 * windowLength config * 1000)
      (rateCalls (limitedProcess config)
        ((List.range' 1 2001 (windowLength config)).map callAt)) = 2001 := by
    have hlength : (rateCalls (limitedProcess config)
        ((List.range' 1 2001 (windowLength config)).map callAt)).length = 2001 := by
      rw [hcalls, List.length_map, List.length_range']
    unfold allowedWithin
    refine (List.countP_eq_length.mpr ?_).trans hlength
    rw [hcalls]
    intro c hc
    obtain ⟨u, hu, rfl⟩ := List.mem_map.mp hc
    obtain ⟨i, hi, rfl⟩ := List.mem_range'.mp hu
    have hle : windowLength config * i ≤ windowLength config * 2000 :=
      Nat.mul_le_mul_left _ (by omega)
    simp only [Bool.true_and, Bool.and_eq_true, decide_eq_true_eq]
    omega
  rw [hall]
  have hrate : opsPerSec config * (2 * windowLength config) =
      2 * (opsPerSec config * windowLength config) := by ring
  omega

/-- **When the configured rate is respected.**  The operations allowed in `T`
seconds stay within `r * T` and one window's worth at each end, for every
process and every running clock, exactly when a window is long enough for one
operation. -/
theorem configured_rate_respected_iff (config : InterceptConfig) (hon : RateLimited config)
    (hwindow : 0 < config.mrRateLimitWindowMs) :
    let r := config.maxMrOpsPerSec.toNat
    let W := config.mrRateLimitWindowMs.toNat
    (∀ (p : Process) (envs : List HookEnv), p.intercept.config = config → Unused p →
        ClockOrdered (clockReadings p envs) → ClockStarted (clockReadings p envs) →
        ∀ t T, W ≤ T * 1000 →
          allowedWithin t (t + T * 1000) (rateCalls p envs) ≤
            r * T + 2 * ((r * W + 999) / 1000)) ↔
      1000 ≤ r * W := by
  intro r W
  have hlength : windowLength config = W := if_neg (UInt32.pos_iff_ne_zero.mp hwindow)
  constructor
  · intro hrespected
    by_contra hshort
    obtain ⟨envs, hordered, hstarted, hexceeds⟩ := ticks_exceed_rate hon
      (by rw [hlength]; exact Nat.not_le.mp hshort)
    have hwithin := hrespected (limitedProcess config) envs rfl rfl hordered hstarted 1 (2 * W)
      (by omega)
    rw [hlength] at hexceeds
    exact absurd hwithin (Nat.not_le.mpr hexceeds)
  · intro hfits p envs hconfig hunused hordered hstarted t T _
    subst hconfig
    have hbound := allowed_le_of_window_fits hon hunused hordered hstarted
      (by rw [hlength]; exact hfits) t T
    rw [hlength] at hbound
    exact hbound

/-- Ten operations per second in windows of 100 milliseconds. -/
theorem configured_rate_respected_iff_at_ten :
    RateLimited (rateConfig 10 100) ∧ 0 < (rateConfig 10 100).mrRateLimitWindowMs ∧
      allowedWithin 1 1001 (rateCalls (limitedProcess (rateConfig 10 100))
        [callAt 1, callAt 2, callAt 101]) ≤ 10 * 1 + 2 * ((10 * 100 + 999) / 1000) :=
  have hon : RateLimited (rateConfig 10 100) := ⟨rfl, by decide⟩
  have hordered : ClockOrdered (clockReadings (limitedProcess (rateConfig 10 100))
      [callAt 1, callAt 2, callAt 101]) := by unfold ClockOrdered; decide
  have hstarted : ClockStarted (clockReadings (limitedProcess (rateConfig 10 100))
      [callAt 1, callAt 2, callAt 101]) := by unfold ClockStarted; decide
  ⟨hon, by decide, (configured_rate_respected_iff (rateConfig 10 100) hon (by decide)).mpr
    (by decide) (limitedProcess (rateConfig 10 100)) [callAt 1, callAt 2, callAt 101] rfl rfl
    hordered hstarted 1 1 (by decide)⟩

/-- One operation per second in windows of 100 milliseconds: four calls, one
window apart, are all allowed. -/
theorem four_allowed_at_one_per_second :
    let calls := rateCalls (limitedProcess (rateConfig 1 100))
      [callAt 1, callAt 101, callAt 201, callAt 301]
    ClockOrdered (clockReadings (limitedProcess (rateConfig 1 100))
      [callAt 1, callAt 101, callAt 201, callAt 301]) ∧
    ClockStarted (clockReadings (limitedProcess (rateConfig 1 100))
      [callAt 1, callAt 101, callAt 201, callAt 301]) ∧
    100 ≤ 1 * 1000 ∧
    1 * 1 + 2 * ((1 * 100 + 999) / 1000) < allowedWithin 1 (1 + 1 * 1000) calls := by
  unfold ClockOrdered ClockStarted
  decide

/-- At the zero time every call takes the window for unused. -/
theorem allowed_at_zero (hon : RateLimited p.intercept.config) (hunused : Unused p) :
    ∀ n, rateCalls p (List.replicate n quietEnv) = List.replicate n ⟨0, true, true⟩ := by
  intro n
  induction n generalizing p with
  | zero => rfl
  | succ n ih =>
      have hdue : WindowDue quietEnv p := .inl (by rw [hunused]; exact ⟨rfl, rfl⟩)
      have hcall := checkMrRateLimit_due hon hdue
      rw [List.replicate_succ, List.replicate_succ]
      unfold rateCalls request
      rw [hcall, decide_eq_true hdue]
      exact congrArg _ (ih hon rfl)

end MtRdma.Ports.MrRateLimiter
