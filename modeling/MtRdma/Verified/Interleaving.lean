import Mathlib.Algebra.BigOperators.Fin
import MtRdma.Verified.Runs

/-!
# Interleaved agents

Agents with a control state each act on one shared state.  What an agent can
do is a partial function of its own control state and the shared state; a step
of the whole is a step of one agent.

The invariants here are about a shared state and a total: each control state
holds something, such as the units its agent has taken and not settled, and
the shared state has to match what all agents hold together.
`local_tally_invariant` reduces such an invariant to the steps of a single
agent, with what all others hold kept fixed; the guard of a step may look at it
too.  What is held may be any commutative sum: a number, or one number for each
of several kinds.
-/

namespace MtRdma.Verified.Interleaving

open Runs

variable {ι κ σ α : Type}

/-- The shared state, and the control state of every agent. -/
structure Config (ι κ σ : Type) where
  shared : σ
  control : ι → κ

/-- One agent performs one action. -/
def act [DecidableEq ι] (step : κ × σ → α → Option (κ × σ)) (c : Config ι κ σ)
    (label : ι × α) : Option (Config ι κ σ) :=
  (step (c.control label.1, c.shared) label.2).map fun next =>
    ⟨next.2, Function.update c.control label.1 next.1⟩

def Interleaved [DecidableEq ι] (step : κ × σ → α → Option (κ × σ)) (c : Config ι κ σ)
    (label : ι × α) (c' : Config ι κ σ) : Prop :=
  act step c label = some c'

theorem interleaved_of_step [DecidableEq ι] {step : κ × σ → α → Option (κ × σ)}
    {c : Config ι κ σ} {i : ι} {a : α} {k : κ} {s : σ}
    (h : step (c.control i, c.shared) a = some (k, s)) :
    Interleaved step c (i, a) ⟨s, Function.update c.control i k⟩ := by
  unfold Interleaved act
  rw [h]
  rfl

/-- One agent performs one action that `ok` allows. -/
def Guarded [DecidableEq ι] (ok : κ × σ → α → Prop) (step : κ × σ → α → Option (κ × σ))
    (c : Config ι κ σ) (label : ι × α) (c' : Config ι κ σ) : Prop :=
  ok (c.control label.1, c.shared) label.2 ∧ Interleaved step c label c'

/-- A schedule that can be executed is a run. -/
theorem run_of_foldlM [DecidableEq ι] {step : κ × σ → α → Option (κ × σ)} {c c' : Config ι κ σ}
    {labels : List (ι × α)} (h : labels.foldlM (act step) c = some c') :
    Run (Interleaved step) c labels c' :=
  Run.of_foldlM h

/-- The actions of one agent, executed one after the other, are a run of all. -/
theorem run_of_agent [DecidableEq ι] {ok : κ × σ → α → Prop}
    {step : κ × σ → α → Option (κ × σ)} {i : ι} {k : κ} {s : σ} {actions : List α}
    (hok : ∀ x, ∀ a ∈ actions, ok x a) {c : Config ι κ σ}
    (h : actions.foldlM step (c.control i, c.shared) = some (k, s)) :
    Run (Guarded ok step) c (actions.map (i, ·)) ⟨s, Function.update c.control i k⟩ := by
  induction actions generalizing c with
  | nil =>
      obtain ⟨rfl, rfl⟩ := Prod.mk.inj (Option.some.inj h)
      rw [Function.update_eq_self]
      exact .start
  | cons a actions ih =>
      rw [List.foldlM_cons, Option.bind_eq_bind, Option.bind_eq_some_iff] at h
      obtain ⟨⟨k₁, s₁⟩, hfirst, hrest⟩ := h
      have hlater := ih (c := ⟨s₁, Function.update c.control i k₁⟩)
        (fun x b hb => hok x b (List.mem_cons_of_mem a hb)) (by simpa using hrest)
      rw [Function.update_idem] at hlater
      exact .cons ⟨hok _ a List.mem_cons_self, interleaved_of_step hfirst⟩ hlater

/-- One agent acts for a while and nobody else does. -/
def Alone (step : κ × σ → α → Option (κ × σ)) (x y : κ × σ) : Prop :=
  ∃ actions : List α, actions.foldlM step x = some y

namespace Alone

variable {step : κ × σ → α → Option (κ × σ)} {x y z : κ × σ}

theorem refl (x : κ × σ) : Alone step x x := ⟨[], rfl⟩

theorem cons {a : α} (h : step x a = some y) (h' : Alone step y z) : Alone step x z := by
  obtain ⟨actions, hactions⟩ := h'
  refine ⟨a :: actions, ?_⟩
  rw [List.foldlM_cons, h]
  exact hactions

theorem invariant {P : κ × σ → Prop} (hstep : ∀ x a y, P x → step x a = some y → P y)
    (h : Alone step x y) (hx : P x) : P y := by
  obtain ⟨actions, hactions⟩ := h
  induction actions generalizing x with
  | nil =>
      obtain rfl := Option.some.inj hactions
      exact hx
  | cons a actions ih =>
      rw [List.foldlM_cons, Option.bind_eq_bind, Option.bind_eq_some_iff] at hactions
      obtain ⟨w, hw, hrest⟩ := hactions
      exact ih (hstep x a w hx hw) hrest

end Alone

section Tally

variable {μ : Type} [AddCommMonoid μ]

/-- What all agents hold together. -/
def tally [Fintype ι] (f : κ → μ) (control : ι → κ) : μ := ∑ i, f (control i)

theorem tally_eq_zero [Fintype ι] {f : κ → μ} {control : ι → κ} (h : ∀ i, f (control i) = 0) :
    tally f control = 0 :=
  Finset.sum_eq_zero fun i _ => h i

variable [Fintype ι] [DecidableEq ι]

/-- What the agents other than `i` hold together. -/
def others (f : κ → μ) (control : ι → κ) (i : ι) : μ :=
  ∑ j ∈ Finset.univ.erase i, f (control j)

theorem tally_eq_others_add (f : κ → μ) (control : ι → κ) (i : ι) :
    tally f control = others f control i + f (control i) :=
  (Finset.sum_erase_add _ _ (Finset.mem_univ i)).symm

theorem others_update (f : κ → μ) (control : ι → κ) (i : ι) (k : κ) :
    others f (Function.update control i k) i = others f control i := by
  apply Finset.sum_congr rfl
  intro j hj
  rw [Function.update_of_ne (Finset.ne_of_mem_erase hj)]

theorem tally_update (f : κ → μ) (control : ι → κ) (i : ι) (k : κ) :
    tally f (Function.update control i k) = others f control i + f k := by
  rw [tally_eq_others_add f _ i, others_update, Function.update_self]

/-- One agent performs one action that `ok` allows, in view of what the others
hold. -/
def GuardedBy (f : κ → μ) (ok : μ → κ × σ → α → Prop) (step : κ × σ → α → Option (κ × σ))
    (c : Config ι κ σ) (label : ι × α) (c' : Config ι κ σ) : Prop :=
  ok (others f c.control label.1) (c.control label.1, c.shared) label.2 ∧
    Interleaved step c label c'

/-- **The invariant rule.**  Next to the invariant `I` of the shared state and
the total there may be one of each agent, `L`, that the steps of the others do
not disturb.  It suffices that the steps of one agent, allowed by `ok`, keep
them whatever the others hold. -/
theorem local_tally_invariant {step : κ × σ → α → Option (κ × σ)} {ok : μ → κ × σ → α → Prop}
    {f : κ → μ} {L : ι → κ → σ → Prop} {I : σ → μ → Prop}
    (hlocal : ∀ i rest k s a k' s', L i k s → I s (rest + f k) → ok rest (k, s) a →
      step (k, s) a = some (k', s') →
      L i k' s' ∧ I s' (rest + f k') ∧ ∀ j k₁, j ≠ i → L j k₁ s → L j k₁ s')
    {c₀ c : Config ι κ σ} {labels : List (ι × α)}
    (hagents : ∀ i, L i (c₀.control i) c₀.shared) (h0 : I c₀.shared (tally f c₀.control))
    (hrun : Run (GuardedBy f ok step) c₀ labels c) :
    (∀ i, L i (c.control i) c.shared) ∧ I c.shared (tally f c.control) := by
  refine Run.invariant
    (P := fun c => (∀ i, L i (c.control i) c.shared) ∧ I c.shared (tally f c.control))
    ⟨hagents, h0⟩ ?_ hrun
  rintro c ⟨i, a⟩ c' ⟨hagent, hinv⟩ ⟨hok, hact⟩
  obtain ⟨next, heq, rfl⟩ := Option.map_eq_some_iff.mp hact
  rw [tally_eq_others_add f _ i] at hinv
  obtain ⟨hown, htotal, hothers⟩ := hlocal i _ _ _ a next.1 next.2 (hagent i) hinv hok heq
  constructor
  · intro j
    by_cases hji : j = i
    · subst hji
      show L j (Function.update c.control j next.1 j) next.2
      rw [Function.update_self]
      exact hown
    · show L j (Function.update c.control i next.1 j) next.2
      rw [Function.update_of_ne hji]
      exact hothers j _ hji (hagent j)
  · rw [tally_update]
    exact htotal

/-- The rule without invariants of single agents. -/
theorem tally_invariant {step : κ × σ → α → Option (κ × σ)} {ok : μ → κ × σ → α → Prop}
    {f : κ → μ} {I : σ → μ → Prop}
    (hlocal : ∀ rest k s a k' s', I s (rest + f k) → ok rest (k, s) a →
      step (k, s) a = some (k', s') → I s' (rest + f k'))
    {c₀ c : Config ι κ σ} {labels : List (ι × α)} (h0 : I c₀.shared (tally f c₀.control))
    (hrun : Run (GuardedBy f ok step) c₀ labels c) : I c.shared (tally f c.control) := by
  refine (local_tally_invariant (L := fun _ _ _ => True) ?_ (fun _ => trivial) h0 hrun).2
  intro i rest k s a k' s' _ hinv hok hstep
  exact ⟨trivial, hlocal rest k s a k' s' hinv hok hstep, fun _ _ _ h => h⟩

/-- The rule for a guard that looks at one agent only. -/
theorem tally_invariant_guarded {step : κ × σ → α → Option (κ × σ)} {ok : κ × σ → α → Prop}
    {f : κ → μ} {I : σ → μ → Prop}
    (hlocal : ∀ rest k s a k' s', I s (rest + f k) → ok (k, s) a →
      step (k, s) a = some (k', s') → I s' (rest + f k'))
    {c₀ c : Config ι κ σ} {labels : List (ι × α)} (h0 : I c₀.shared (tally f c₀.control))
    (hrun : Run (Guarded ok step) c₀ labels c) : I c.shared (tally f c.control) := by
  have hrun' : Run (GuardedBy f (fun _ => ok) step) c₀ labels c := hrun.mono fun _ _ _ h => h
  exact tally_invariant hlocal h0 hrun'

end Tally

end MtRdma.Verified.Interleaving
