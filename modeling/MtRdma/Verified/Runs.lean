import Mathlib.Data.List.Induction

/-!
# Runs of a labelled transition system

`Run step s as s'` says that the labels `as`, oldest first, take `s` to `s'`.
A total machine is run by a left fold instead.

Every safety statement of the development is an instance of one of the rules
below: a property that holds initially and is kept by every step holds in
every state reached (`Run.invariant`, `foldl_invariant`), also when the
property looks at the labels seen so far (`Run.history`).
-/

namespace MtRdma.Verified.Runs

variable {σ α : Type}

/-- Finite runs, oldest label first. -/
inductive Run (step : σ → α → σ → Prop) (s : σ) : List α → σ → Prop
  | start : Run step s [] s
  | snoc {as : List α} {a : α} {s' s'' : σ} :
      Run step s as s' → step s' a s'' → Run step s (as ++ [a]) s''

namespace Run

variable {step step' : σ → α → σ → Prop} {s s' : σ} {as : List α}

/-- A property of the labels seen so far and the current state that holds
initially and is kept by every step holds at the end of every run. -/
theorem history {P : List α → σ → Prop} (h0 : P [] s)
    (hstep : ∀ as a s₁ s₂, P as s₁ → step s₁ a s₂ → P (as ++ [a]) s₂)
    (hrun : Run step s as s') : P as s' := by
  induction hrun with
  | start => exact h0
  | snoc _ ha ih => exact hstep _ _ _ _ ih ha

/-- The invariant rule. -/
theorem invariant {P : σ → Prop} (h0 : P s)
    (hstep : ∀ s₁ a s₂, P s₁ → step s₁ a s₂ → P s₂)
    (hrun : Run step s as s') : P s' := by
  induction hrun with
  | start => exact h0
  | snoc _ ha ih => exact hstep _ _ _ ih ha

/-- A step of a run starts where the invariant holds. -/
theorem guarded {P : σ → Prop} (h0 : P s) (hstep : ∀ s₁ a s₂, P s₁ → step s₁ a s₂ → P s₂)
    (hrun : Run step s as s') : Run (fun s₁ a s₂ => P s₁ ∧ step s₁ a s₂) s as s' := by
  induction hrun with
  | start => exact .start
  | snoc hbefore ha ih => exact ih.snoc ⟨hbefore.invariant h0 hstep, ha⟩

/-- A run whose labels are all allowed. -/
theorem labelled {ok : α → Prop} (hok : ∀ a ∈ as, ok a) (hrun : Run step s as s') :
    Run (fun s₁ a s₂ => ok a ∧ step s₁ a s₂) s as s' := by
  induction hrun with
  | start => exact .start
  | snoc _ ha ih =>
      exact .snoc (ih fun a h => hok a (List.mem_append_left _ h))
        ⟨hok _ (List.mem_append_right _ (List.mem_singleton_self _)), ha⟩

/-- A step in front of a run. -/
theorem cons {a : α} {s₁ : σ} (ha : step s a s₁) (hrun : Run step s₁ as s') :
    Run step s (a :: as) s' := by
  induction hrun with
  | start => exact .snoc .start ha
  | snoc _ hb ih => exact .snoc ih hb

/-- One run after the other. -/
theorem append {bs : List α} {s'' : σ} (hrun : Run step s as s') (hlater : Run step s' bs s'') :
    Run step s (as ++ bs) s'' := by
  induction hlater with
  | start =>
      rw [List.append_nil]
      exact hrun
  | snoc _ ha ih =>
      rw [← List.append_assoc]
      exact .snoc ih ha

/-- The last step of a run. -/
theorem last {a : α} (hrun : Run step s (as ++ [a]) s') :
    ∃ s₁, Run step s as s₁ ∧ step s₁ a s' := by
  generalize hlabels : as ++ [a] = labels at hrun
  cases hrun with
  | start => simp at hlabels
  | snoc hbefore ha =>
      obtain ⟨rfl, hlast⟩ := List.append_inj' hlabels rfl
      obtain rfl := (List.cons.inj hlast).1
      exact ⟨_, hbefore, ha⟩

/-- A run passes through a state after each of its prefixes. -/
theorem of_append {bs : List α} (hrun : Run step s (as ++ bs) s') : ∃ s₁, Run step s as s₁ := by
  induction bs using List.reverseRecOn generalizing s' with
  | nil =>
      rw [List.append_nil] at hrun
      exact ⟨s', hrun⟩
  | append_singleton bs b ih =>
      rw [← List.append_assoc] at hrun
      generalize hlabels : as ++ bs ++ [b] = labels at hrun
      cases hrun with
      | start => simp at hlabels
      | snoc hbefore _ =>
          obtain ⟨hinit, -⟩ := List.append_inj' hlabels rfl
          exact ih (hinit ▸ hbefore)

/-- Labels that can be executed one after the other are a run. -/
theorem of_foldlM {next : σ → α → Option σ} (h : as.foldlM next s = some s') :
    Run (fun s₁ a s₂ => next s₁ a = some s₂) s as s' := by
  induction as using List.reverseRecOn generalizing s' with
  | nil =>
      obtain rfl := Option.some.inj h
      exact .start
  | append_singleton as a ih =>
      rw [List.foldlM_append, Option.bind_eq_bind, Option.bind_eq_some_iff] at h
      obtain ⟨s₁, hbefore, hlast⟩ := h
      rw [List.foldlM_cons, Option.bind_eq_bind, Option.bind_eq_some_iff] at hlast
      obtain ⟨s₂, hact, hsame⟩ := hlast
      obtain rfl := Option.some.inj hsame
      exact (ih hbefore).snoc hact

/-- A machine refines what it is a view of, if every step that shows something
is a step of the view, and every other step leaves the view alone: what a run
shows is a run of the view. -/
theorem refines {ω β : Type} {view : σ → ω} {shown : α → Option β} {spec : ω → β → ω → Prop}
    (hshown : ∀ s₁ a s₂ b, step s₁ a s₂ → shown a = some b → spec (view s₁) b (view s₂))
    (hsilent : ∀ s₁ a s₂, step s₁ a s₂ → shown a = none → view s₂ = view s₁)
    (hrun : Run step s as s') : Run spec (view s) (as.filterMap shown) (view s') := by
  induction hrun with
  | start => exact .start
  | @snoc as a s₁ s₂ _ ha ih =>
      rw [List.filterMap_append]
      cases hb : shown a with
      | none =>
          rw [List.filterMap_cons_none hb, List.filterMap_nil, List.append_nil,
            hsilent _ _ _ ha hb]
          exact ih
      | some b =>
          rw [List.filterMap_cons_some hb, List.filterMap_nil]
          exact ih.snoc (hshown _ _ _ _ ha hb)

/-- A run of a smaller step relation is a run of a larger one. -/
theorem mono (h : ∀ s₁ a s₂, step s₁ a s₂ → step' s₁ a s₂)
    (hrun : Run step s as s') : Run step' s as s' := by
  induction hrun with
  | start => exact .start
  | snoc _ ha ih => exact .snoc ih (h _ _ _ ha)

end Run

/-- The invariant rule for a total machine. -/
theorem foldl_invariant {P : σ → Prop} {f : σ → α → σ} {s : σ} (h0 : P s)
    (hstep : ∀ s₁ a, P s₁ → P (f s₁ a)) (as : List α) : P (as.foldl f s) := by
  induction as generalizing s with
  | nil => exact h0
  | cons a as ih => exact ih (hstep s a h0)

/-! ## What happened since -/

/-- Some label satisfies `set`, and no label after it satisfies `reset`, which
may look at all labels before the one it judges. -/
def SinceAt (set : α → Prop) (reset : List α → α → Prop) (as : List α) : Prop :=
  ∃ pre a post, as = pre ++ a :: post ∧ set a ∧
    ∀ upto b rest, post = upto ++ b :: rest → ¬reset (pre ++ a :: upto) b

/-- Some label satisfies `set`, and no label after it satisfies `reset`. -/
def Since (set reset : α → Prop) (as : List α) : Prop :=
  ∃ pre a post, as = pre ++ a :: post ∧ set a ∧ ∀ b ∈ post, ¬reset b

theorem not_sinceAt_nil (set : α → Prop) (reset : List α → α → Prop) :
    ¬SinceAt set reset [] := by
  rintro ⟨pre, a, post, heq, _, _⟩
  simp at heq

/-- One more label either sets the property itself, or leaves it as it was
unless it resets it. -/
theorem sinceAt_snoc (set : α → Prop) (reset : List α → α → Prop) (as : List α) (a : α) :
    SinceAt set reset (as ++ [a]) ↔ set a ∨ (SinceAt set reset as ∧ ¬reset as a) := by
  constructor
  · rintro ⟨pre, b, post, heq, hb, hpost⟩
    rcases List.eq_nil_or_concat post with rfl | ⟨post', c, rfl⟩
    · obtain ⟨-, hab⟩ := List.append_inj' heq rfl
      simp only [List.cons.injEq, and_true] at hab
      exact .inl (hab ▸ hb)
    · rw [List.concat_eq_append, ← List.cons_append, ← List.append_assoc] at heq
      obtain ⟨has, hac⟩ := List.append_inj' heq rfl
      simp only [List.cons.injEq, and_true] at hac
      subst hac
      rw [List.concat_eq_append] at hpost
      have hreset : ¬reset as a := has ▸ hpost post' a [] rfl
      refine .inr ⟨⟨pre, b, post', has, hb, ?_⟩, hreset⟩
      intro upto d rest hd
      exact hpost upto d (rest ++ [a]) (by rw [hd, List.append_assoc]; rfl)
  · rintro (ha | ⟨⟨pre, b, post, rfl, hb, hpost⟩, hreset⟩)
    · exact ⟨as, a, [], rfl, ha, by simp⟩
    · refine ⟨pre, b, post ++ [a], by simp, hb, ?_⟩
      intro upto d rest hd
      rcases List.eq_nil_or_concat rest with rfl | ⟨rest', c, rfl⟩
      · obtain ⟨hupto, had⟩ := List.append_inj' hd rfl
        simp only [List.cons.injEq, and_true] at had
        exact hupto ▸ had ▸ hreset
      · rw [List.concat_eq_append, ← List.cons_append, ← List.append_assoc] at hd
        obtain ⟨hinit, -⟩ := List.append_inj' hd rfl
        exact hpost upto d rest' hinit

theorem since_iff_sinceAt (set reset : α → Prop) (as : List α) :
    Since set reset as ↔ SinceAt set (fun _ => reset) as := by
  unfold Since SinceAt
  simp only [List.mem_iff_append, forall_exists_index]
  constructor
  · rintro ⟨pre, a, post, heq, ha, hpost⟩
    exact ⟨pre, a, post, heq, ha, fun upto b rest h => hpost b upto rest h⟩
  · rintro ⟨pre, a, post, heq, ha, hpost⟩
    exact ⟨pre, a, post, heq, ha, fun b upto rest h => hpost upto b rest h⟩

theorem not_since_nil (set reset : α → Prop) : ¬Since set reset [] := by
  rw [since_iff_sinceAt]
  exact not_sinceAt_nil set _

theorem since_snoc (set reset : α → Prop) (as : List α) (a : α) :
    Since set reset (as ++ [a]) ↔ set a ∨ (Since set reset as ∧ ¬reset a) := by
  rw [since_iff_sinceAt, since_iff_sinceAt]
  exact sinceAt_snoc set _ as a

end MtRdma.Verified.Runs
