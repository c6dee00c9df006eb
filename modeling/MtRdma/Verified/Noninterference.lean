import Mathlib.Data.List.Basic

/-!
# Noninterference of a machine with answers

A machine takes calls one after another and answers each.  Some of the calls
belong to an observer, who sees the answers to them and, at the end, a view of
the state.

The observer is isolated from the other calls when removing them changes
neither (`Unwinding.purge`).  What has to be shown for that is about one call
at a time: a call of someone else leaves the view alone, and a call of the
observer answers and moves the view as the view says.
-/

namespace MtRdma.Verified.Noninterference

variable {σ α β ω : Type}

/-- The answers to the visible calls, and the state after all calls. -/
def observe (step : σ → α → β × σ) (visible : α → Bool) : List α → σ → List β × σ
  | [], s => ([], s)
  | a :: as, s =>
      let rest := observe step visible as (step s a).2
      (if visible a then (step s a).1 :: rest.1 else rest.1, rest.2)

section Observe

variable (step : σ → α → β × σ) {visible : α → Bool} {a : α}

theorem observe_visible (h : visible a = true) (as : List α) (s : σ) :
    observe step visible (a :: as) s =
      ((step s a).1 :: (observe step visible as (step s a).2).1,
        (observe step visible as (step s a).2).2) := by
  simp [observe, h]

theorem observe_hidden (h : visible a = false) (as : List α) (s : σ) :
    observe step visible (a :: as) s = observe step visible as (step s a).2 := by
  simp [observe, h]

end Observe

/-- The conditions on single calls. -/
structure Unwinding (step : σ → α → β × σ) (visible : α → Bool) (view : σ → ω) : Prop where
  hidden : ∀ s a, visible a = false → view (step s a).2 = view s
  answer : ∀ s s' a, visible a = true → view s = view s' → (step s a).1 = (step s' a).1
  follow : ∀ s s' a, visible a = true → view s = view s' → view (step s a).2 = view (step s' a).2

/-- **Purging.**  From states with the same view, a run and the run of its
visible calls alone give the observer the same answers and the same final
view. -/
theorem Unwinding.purge {step : σ → α → β × σ} {visible : α → Bool} {view : σ → ω}
    (h : Unwinding step visible view) (as : List α) :
    ∀ s s' : σ, view s = view s' →
      (observe step visible as s).1 = (observe step visible (as.filter visible) s').1 ∧
        view (observe step visible as s).2 =
          view (observe step visible (as.filter visible) s').2 := by
  induction as with
  | nil =>
      intro s s' hview
      exact ⟨rfl, hview⟩
  | cons a as ih =>
      intro s s' hview
      cases hvis : visible a with
      | true =>
          have hnext := ih _ _ (h.follow s s' a hvis hview)
          rw [List.filter_cons_of_pos hvis, observe_visible step hvis, observe_visible step hvis,
            h.answer s s' a hvis hview]
          exact ⟨congrArg ((step s' a).1 :: ·) hnext.1, hnext.2⟩
      | false =>
          have hkept : view (step s a).2 = view s' := (h.hidden s a hvis).trans hview
          rw [List.filter_cons_of_neg (by simp [hvis]), observe_hidden step hvis]
          exact ih _ _ hkept

end MtRdma.Verified.Noninterference
