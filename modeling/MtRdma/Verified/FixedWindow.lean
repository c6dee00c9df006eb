import MtRdma.Verified.Runs

/-!
# Fixed-window rate limiters

A limiter grants at most `M` requests per window.  A window is started by a
request, not by the clock: by the first one, and then by every request that
comes `W` or more after the start of the current window.  The limiter reads
the clock once more to record when the new window started, so a window starts
at or after the request that starts it.

Requests that start windows are at least `W` apart, and each window grants at
most `M`.  The number of requests granted in a stretch of time follows from
the number of windows that the stretch can meet (`granted_span_le`).
-/

namespace MtRdma.Verified.FixedWindow

open Runs

/-! ## The limiter -/

/-- One request: its first clock reading, whether it started a window, and
whether it was granted. -/
structure Request where
  time : Nat
  renewed : Bool
  granted : Bool
  deriving Repr, DecidableEq

/-- When a window was started, and how many requests it has granted. -/
structure Window where
  start : Nat
  count : Nat
  deriving Repr, DecidableEq

/-- The latest clock reading, and the current window if there has been a
request. -/
structure Limiter where
  last : Nat
  window : Option Window
  deriving Repr, DecidableEq

def Limiter.idle : Limiter := ⟨0, none⟩

/-- A request to a limiter of `M` per `W`, with a clock that does not go
back. -/
inductive Step (W M : Nat) (s : Limiter) : Request → Limiter → Prop
  | renew {time start : Nat} : s.last ≤ time →
      (∀ w, s.window = some w → w.start + W ≤ time) → time ≤ start →
      Step W M s ⟨time, true, true⟩ ⟨start, some ⟨start, 1⟩⟩
  | grant {w : Window} {time : Nat} : s.last ≤ time → s.window = some w →
      time < w.start + W → w.count < M →
      Step W M s ⟨time, false, true⟩ ⟨time, some ⟨w.start, w.count + 1⟩⟩
  | refuse {w : Window} {time : Nat} : s.last ≤ time → s.window = some w →
      time < w.start + W → M ≤ w.count →
      Step W M s ⟨time, false, false⟩ ⟨time, some w⟩

/-! ## The current window -/

/-- The requests since the latest one that started a window, that one
included. -/
def currentWindow (requests : List Request) : List Request :=
  requests.foldl (fun window r => if r.renewed then [r] else window ++ [r]) []

theorem currentWindow_snoc (requests : List Request) (r : Request) :
    currentWindow (requests ++ [r]) =
      if r.renewed then [r] else currentWindow requests ++ [r] := by
  unfold currentWindow
  rw [List.foldl_append]
  rfl

/-- Requests of which at most the first one started a window are in one
window. -/
theorem suffix_currentWindow (before : List Request) {requests : List Request}
    (h : ∀ r ∈ requests.tail, r.renewed = false) :
    requests <:+ currentWindow (before ++ requests) := by
  induction requests using List.reverseRecOn with
  | nil => exact List.nil_suffix
  | append_singleton requests r ih =>
      rw [← List.append_assoc, currentWindow_snoc]
      cases requests with
      | nil =>
          rw [List.append_nil, List.nil_append]
          split
          · exact List.suffix_rfl
          · exact List.suffix_append _ _
      | cons first rest =>
          have hr : r.renewed = false := h r (by simp)
          have hrest := ih fun r' hr' => h r' (by
            rw [List.cons_append, List.tail_cons]
            exact List.mem_append_left _ hr')
          rw [hr, if_neg Bool.false_ne_true]
          have hlength : [r].length = [r].length := rfl
          exact (List.suffix_append_inj_of_length_eq hlength).mpr ⟨hrest, rfl⟩

/-- The requests that were granted. -/
def grantedIn (requests : List Request) : Nat := requests.countP (·.granted)

/-- What the current window records of the past. -/
structure WindowCounts (M : Nat) (requests : List Request) (last : Nat) (w : Window) : Prop where
  count_le : w.count ≤ M
  count_eq : w.count = grantedIn (currentWindow requests)
  start_le : w.start ≤ last

structure Counts (M : Nat) (requests : List Request) (s : Limiter) : Prop where
  window : ∀ w, s.window = some w → WindowCounts M requests s.last w
  fresh : s.window = none → requests = []
  time_le : ∀ r ∈ requests, r.time ≤ s.last

section Runs

variable {W M : Nat} {requests : List Request} {s s' : Limiter} {r : Request}

theorem Counts.idle : Counts M [] .idle where
  window := fun _ h => nomatch h
  fresh := fun _ => rfl
  time_le := fun _ h => nomatch h

/-- A request with a clock that has not gone back, and the window it leaves. -/
theorem Counts.snoc {last : Nat} {w : Window} (h : Counts M requests s) (hlast : s.last ≤ r.time)
    (hnext : r.time ≤ last) (hw : WindowCounts M (requests ++ [r]) last w) :
    Counts M (requests ++ [r]) ⟨last, some w⟩ where
  window := fun w' hw' => Option.some.inj hw' ▸ hw
  fresh := fun hnone => nomatch hnone
  time_le := by
    intro r' hr'
    rcases List.mem_append.mp hr' with hmem | hmem
    · have hle := h.time_le r' hmem
      show r'.time ≤ last
      omega
    · rw [List.mem_singleton.mp hmem]
      exact hnext

theorem Counts.step (hM : 0 < M) (h : Counts M requests s) (hstep : Step W M s r s') :
    Counts M (requests ++ [r]) s' := by
  cases hstep with
  | renew hlast _ hstart =>
      refine h.snoc hlast hstart ⟨hM, ?_, Nat.le_refl _⟩
      rw [currentWindow_snoc]
      rfl
  | @grant w _ hlast hwindow _ hcount =>
      have hw := h.window w hwindow
      refine h.snoc hlast (Nat.le_refl _) ⟨hcount, ?_, Nat.le_trans hw.start_le hlast⟩
      show w.count + 1 = _
      rw [currentWindow_snoc, hw.count_eq]
      simp [grantedIn]
  | @refuse w _ hlast hwindow _ _ =>
      have hw := h.window w hwindow
      refine h.snoc hlast (Nat.le_refl _) ⟨hw.count_le, ?_, Nat.le_trans hw.start_le hlast⟩
      rw [currentWindow_snoc, hw.count_eq]
      simp [grantedIn]

theorem Counts.run (hM : 0 < M) (hrun : Run (Step W M) .idle requests s) : Counts M requests s :=
  hrun.history .idle fun _ _ _ _ h hstep => h.step hM hstep

/-- No window grants more than `M`. -/
theorem granted_currentWindow_le (hM : 0 < M) (hrun : Run (Step W M) .idle requests s) :
    grantedIn (currentWindow requests) ≤ M := by
  have h := Counts.run hM hrun
  cases hwindow : s.window with
  | none =>
      rw [h.fresh hwindow]
      exact Nat.zero_le M
  | some w =>
      rw [← (h.window w hwindow).count_eq]
      exact (h.window w hwindow).count_le

/-- **Between two starts of a window at most `M` requests are granted.** -/
theorem granted_window_le (hM : 0 < M) (hrun : Run (Step W M) .idle requests s)
    {before window after : List Request} (hsplit : requests = before ++ window ++ after)
    (hone : ∀ r ∈ window.tail, r.renewed = false) : grantedIn window ≤ M := by
  rw [hsplit] at hrun
  obtain ⟨s₁, hprefix⟩ := hrun.of_append
  have hsuffix := suffix_currentWindow before hone
  calc grantedIn window
      ≤ grantedIn (currentWindow (before ++ window)) := hsuffix.sublist.countP_le
    _ ≤ M := granted_currentWindow_le hM hprefix

/-- **A request is refused only when its window has granted `M`.** -/
theorem granted_of_refused (hM : 0 < M) (hrun : Run (Step W M) .idle requests s)
    {before after : List Request} (hsplit : requests = before ++ r :: after)
    (hrefused : r.granted = false) : grantedIn (currentWindow (before ++ [r])) = M := by
  have hsplit' : requests = before ++ [r] ++ after := by rw [hsplit, List.append_assoc]; rfl
  rw [hsplit'] at hrun
  obtain ⟨s₂, hprefix⟩ := hrun.of_append
  have hle := granted_currentWindow_le hM hprefix
  generalize hlabels : before ++ [r] = labels at hprefix
  cases hprefix with
  | start => simp at hlabels
  | snoc hbefore hstep =>
      obtain ⟨rfl, hlast⟩ := List.append_inj' hlabels rfl
      cases List.singleton_inj.mp hlast
      cases hstep with
      | renew | grant => cases hrefused
      | @refuse w time _ hwindow _ hfull =>
          have hcount := ((Counts.run hM hbefore).window w hwindow).count_eq
          have hsame : grantedIn (currentWindow (before ++ [⟨time, false, false⟩])) =
              grantedIn (currentWindow before) := by
            rw [currentWindow_snoc]
            simp [grantedIn]
          omega

end Runs

/-! ## Stretches of time -/

/-- The requests made from `lo` to `hi`. -/
def within (lo hi : Nat) (requests : List Request) : List Request :=
  requests.filter fun r => lo ≤ r.time && r.time ≤ hi

/-- The windows that were started. -/
def renewedIn (requests : List Request) : Nat := requests.countP (·.renewed)

/-- How many requests the current window has granted. -/
def Limiter.count (s : Limiter) : Nat := (s.window.map (·.count)).getD 0

/-- The bounds on `granted` requests and `renewed` windows of a stretch of
time.  Every window started in it accounts for `M` requests, the window it
begins with for another `M`; the windows started in it are `W` apart. -/
structure SpanCounts (W M lo hi granted renewed : Nat) (s : Limiter) : Prop where
  granted_le : granted ≤ M * renewed + M
  granted_now : s.last ≤ hi → granted ≤ M * renewed + s.count
  started : ∀ w, s.window = some w → 0 < renewed → lo + (renewed - 1) * W ≤ w.start
  spaced : 0 < renewed → lo + (renewed - 1) * W ≤ hi

section Span

variable {W M lo hi granted renewed : Nat} {requests : List Request} {s s' : Limiter}
  {r : Request}

theorem count_eq {w : Window} (hwindow : s.window = some w) : s.count = w.count := by
  unfold Limiter.count
  rw [hwindow]
  rfl

theorem Counts.count_le (h : Counts M requests s) : s.count ≤ M := by
  cases hwindow : s.window with
  | none =>
      unfold Limiter.count
      rw [hwindow]
      exact Nat.zero_le M
  | some w =>
      rw [count_eq hwindow]
      exact (h.window w hwindow).count_le

theorem SpanCounts.zero (s : Limiter) : SpanCounts W M lo hi 0 0 s where
  granted_le := Nat.zero_le _
  granted_now := fun _ => Nat.zero_le _
  started := fun _ _ h => nomatch h
  spaced := fun h => nomatch h

/-- A request behind the stretch leaves the counts alone. -/
theorem SpanCounts.after (h : SpanCounts W M lo hi granted renewed s)
    (hstep : Step W M s r s') (hafter : hi < r.time) : SpanCounts W M lo hi granted renewed s' := by
  cases hstep with
  | renew _ _ hstart =>
      refine ⟨h.granted_le, ?_, ?_, h.spaced⟩
      · intro hlast
        simp only at hafter hlast
        omega
      · intro w hw hpos
        cases hw
        have hspaced := h.spaced hpos
        simp only at hafter ⊢
        omega
  | @grant w _ hlast hwindow _ _ =>
      refine ⟨h.granted_le, fun hle => absurd hafter (Nat.not_lt.mpr hle), ?_, h.spaced⟩
      intro w' hw' hpos
      cases hw'
      exact h.started w hwindow hpos
  | @refuse w _ hlast hwindow _ _ =>
      refine ⟨h.granted_le, fun hle => absurd hafter (Nat.not_lt.mpr hle), ?_, h.spaced⟩
      intro w' hw' hpos
      cases hw'
      exact h.started w hwindow hpos

/-- A request in the stretch that starts a window. -/
theorem SpanCounts.renew (hM : 0 < M) (hcount : s.count ≤ M)
    (h : SpanCounts W M lo hi granted renewed s) {time start : Nat} (hlast : s.last ≤ time)
    (hdue : ∀ w, s.window = some w → w.start + W ≤ time)
    (hwindow : 0 < renewed → ∃ w, s.window = some w)
    (hstart : time ≤ start) (hlo : lo ≤ time) (hhi : time ≤ hi) :
    SpanCounts W M lo hi (granted + 1) (renewed + 1) ⟨start, some ⟨start, 1⟩⟩ := by
  have hnow := h.granted_now (Nat.le_trans hlast hhi)
  have hmul : M * (renewed + 1) = M * renewed + M := Nat.mul_succ M renewed
  -- the window before was started `W` or more earlier
  have hspaced : lo + (renewed + 1 - 1) * W ≤ time := by
    cases renewed with
    | zero => simpa using hlo
    | succ n =>
        obtain ⟨w, hw⟩ := hwindow (Nat.succ_pos n)
        have hbefore := h.started w hw (Nat.succ_pos n)
        have hnext := hdue w hw
        have hsucc : (n + 1) * W = n * W + W := Nat.succ_mul n W
        simp only [Nat.add_sub_cancel] at hbefore ⊢
        omega
  refine ⟨by omega, ?_, ?_, fun _ => Nat.le_trans hspaced hhi⟩
  · intro _
    show granted + 1 ≤ M * (renewed + 1) + 1
    omega
  · intro w hw _
    cases hw
    exact Nat.le_trans hspaced hstart

/-- A request in the stretch that is granted in the current window. -/
theorem SpanCounts.grant (h : SpanCounts W M lo hi granted renewed s) {w : Window} {time : Nat}
    (hlast : s.last ≤ time) (hwindow : s.window = some w) (hcount : w.count < M)
    (hhi : time ≤ hi) :
    SpanCounts W M lo hi (granted + 1) renewed ⟨time, some ⟨w.start, w.count + 1⟩⟩ := by
  have hnow := h.granted_now (Nat.le_trans hlast hhi)
  have hcur := count_eq hwindow
  refine ⟨by omega, ?_, ?_, h.spaced⟩
  · intro _
    show granted + 1 ≤ M * renewed + (w.count + 1)
    omega
  · intro w' hw' hpos
    cases hw'
    exact h.started w hwindow hpos

theorem SpanCounts.refuse (h : SpanCounts W M lo hi granted renewed s) {w : Window} {time : Nat}
    (hlast : s.last ≤ time) (hwindow : s.window = some w) :
    SpanCounts W M lo hi granted renewed ⟨time, some w⟩ := by
  have hcur := count_eq hwindow
  refine ⟨h.granted_le, ?_, ?_, h.spaced⟩
  · intro hle
    have hnow := h.granted_now (Nat.le_trans hlast hle)
    show granted ≤ M * renewed + w.count
    omega
  · intro w' hw' hpos
    cases hw'
    exact h.started w hwindow hpos

theorem within_snoc (requests : List Request) (r : Request) :
    within lo hi (requests ++ [r]) =
      within lo hi requests ++ if lo ≤ r.time ∧ r.time ≤ hi then [r] else [] := by
  unfold within
  rw [List.filter_append, List.filter_cons]
  simp only [Bool.and_eq_true, decide_eq_true_eq, List.filter_nil]

/-- Before `lo` nothing is counted. -/
theorem within_eq_nil (h : ∀ r ∈ requests, r.time < lo) : within lo hi requests = [] := by
  unfold within
  rw [List.filter_eq_nil_iff]
  intro r hr
  have hlt := h r hr
  simp only [Bool.and_eq_true, decide_eq_true_eq]
  omega

/-- A request in the stretch. -/
theorem SpanCounts.inside (hM : 0 < M) (hc : Counts M requests s)
    (h : SpanCounts W M lo hi (grantedIn (within lo hi requests))
      (renewedIn (within lo hi requests)) s)
    (hstep : Step W M s r s') (hlo : lo ≤ r.time) (hhi : r.time ≤ hi) :
    SpanCounts W M lo hi (grantedIn (within lo hi (requests ++ [r])))
      (renewedIn (within lo hi (requests ++ [r]))) s' := by
  have hsnoc : within lo hi (requests ++ [r]) = within lo hi requests ++ [r] := by
    rw [within_snoc, if_pos ⟨hlo, hhi⟩]
  have hgranted : grantedIn (within lo hi (requests ++ [r])) =
      grantedIn (within lo hi requests) + if r.granted then 1 else 0 := by
    rw [hsnoc]
    simp [grantedIn, List.countP_cons]
  have hrenewed : renewedIn (within lo hi (requests ++ [r])) =
      renewedIn (within lo hi requests) + if r.renewed then 1 else 0 := by
    rw [hsnoc]
    simp [renewedIn, List.countP_cons]
  rw [hgranted, hrenewed]
  cases hstep with
  | renew hlast hdue hstart =>
      refine h.renew hM hc.count_le hlast hdue ?_ hstart hlo hhi
      intro hpos
      cases hwindow : s.window with
      | some w => exact ⟨w, rfl⟩
      | none =>
          rw [hc.fresh hwindow] at hpos
          cases hpos
  | grant hlast hwindow _ hcount => exact h.grant hlast hwindow hcount hhi
  | refuse hlast hwindow _ _ => exact h.refuse hlast hwindow

theorem SpanCounts.step (hM : 0 < M) (hc : Counts M requests s)
    (h : SpanCounts W M lo hi (grantedIn (within lo hi requests))
      (renewedIn (within lo hi requests)) s)
    (hstep : Step W M s r s') :
    SpanCounts W M lo hi (grantedIn (within lo hi (requests ++ [r])))
      (renewedIn (within lo hi (requests ++ [r]))) s' := by
  by_cases hin : lo ≤ r.time ∧ r.time ≤ hi
  · exact h.inside hM hc hstep hin.1 hin.2
  · have hsame : within lo hi (requests ++ [r]) = within lo hi requests := by
      rw [within_snoc, if_neg hin, List.append_nil]
    rw [hsame]
    by_cases hafter : hi < r.time
    · exact h.after hstep hafter
    · -- the clock has not reached the stretch yet
      have hlast : s.last ≤ r.time := by cases hstep <;> assumption
      have hnil : within lo hi requests = [] := by
        refine within_eq_nil fun r' hr' => ?_
        have hle := hc.time_le r' hr'
        omega
      rw [hnil]
      exact .zero s'

theorem SpanCounts.run (hM : 0 < M) (hrun : Run (Step W M) .idle requests s) :
    SpanCounts W M lo hi (grantedIn (within lo hi requests))
      (renewedIn (within lo hi requests)) s := by
  have hboth : Counts M requests s ∧ SpanCounts W M lo hi (grantedIn (within lo hi requests))
      (renewedIn (within lo hi requests)) s := by
    refine hrun.history (P := fun requests s => Counts M requests s ∧
      SpanCounts W M lo hi (grantedIn (within lo hi requests))
        (renewedIn (within lo hi requests)) s) ⟨.idle, .zero _⟩ ?_
    intro requests r s₁ s₂ h hstep
    exact ⟨h.1.step hM hstep, h.2.step hM h.1 hstep⟩
  exact hboth.2

/-- **A stretch of time of length `len` grants at most `M` for every window
length that fits into it, and `2 * M` more.** -/
theorem granted_span_le (hM : 0 < M) (hW : 0 < W) (hrun : Run (Step W M) .idle requests s)
    (lo len : Nat) : grantedIn (within lo (lo + len) requests) ≤ M * (len / W + 2) := by
  have h : SpanCounts W M lo (lo + len) (grantedIn (within lo (lo + len) requests))
      (renewedIn (within lo (lo + len) requests)) s := SpanCounts.run hM hrun
  generalize grantedIn (within lo (lo + len) requests) = granted at h ⊢
  generalize renewedIn (within lo (lo + len) requests) = renewed at h
  have hrenewed : renewed ≤ len / W + 1 := by
    cases renewed with
    | zero => exact Nat.zero_le _
    | succ n =>
        have hspaced := h.spaced (Nat.succ_pos n)
        have hfit : n * W ≤ len := by
          simp only [Nat.add_sub_cancel] at hspaced
          omega
        exact Nat.succ_le_succ ((Nat.le_div_iff_mul_le hW).mpr hfit)
  calc granted ≤ M * renewed + M := h.granted_le
    _ ≤ M * (len / W + 1) + M := Nat.add_le_add_right (Nat.mul_le_mul_left M hrenewed) M
    _ = M * (len / W + 2) := (Nat.mul_succ M (len / W + 1)).symm

end Span

end MtRdma.Verified.FixedWindow
