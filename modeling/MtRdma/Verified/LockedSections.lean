import MtRdma.Verified.AccessCode
import MtRdma.Verified.Interleaving

/-!
# Sections under one spin lock

A function that works on shared memory makes many accesses to it.  When all of
them happen between taking and releasing one lock, and every function of a
module does so, the module may be treated as if each call were one step.  This
file proves that.

The body of a function is `Code`, the accesses it makes one after the other.
In the machine `SectionStep` any number of agents call functions, spin on the
lock, make their accesses one at a time and release the lock, in any order.

The invariant is `Between`: whoever is inside would, left alone, finish with
the answer and the memory that the call has as one step.  So an access of the
holder keeps it, and nobody else can access anything.

A call may also be refused before it takes the lock, because its arguments say
so; then its answer depends on no memory.

## Main results

* `calls_atomic`: the calls in the order in which they release the lock are a
  run of the functions as single steps, with the same answers, and a free lock
  shows the memory of that run.
* `invariant_when_free`: what every function keeps as one step holds whenever
  the lock is free.
* `section_ends`: if no section makes more than `n` accesses, then an agent that
  is inside has its answer after `n + 1` steps of its own, whatever the others
  do.
* `Between.seen` and `view_kept`: what someone sees of the memory without the lock,
  before, in and after a section.
* `glances_refine`: the same functions may look at the memory before they take
  the lock, and answer at once by what they see; the calls that go on to the lock
  are still a run of `SectionStep`.  `glance_answers` is about those that do not.
-/

namespace MtRdma.Verified.LockedSections

open AccessCode
open Runs
open Interleaving

variable {ι σ α β : Type}

/-! ## Calls -/

/-- What a call does: it is refused at once, or it runs a section. -/
inductive Body (σ β : Type) where
  | refused (b : β)
  | locked (code : Code σ β)

/-- The bodies do what the functions do as single steps. -/
structure Implements (body : α → Body σ β) (exec : α → σ → β × σ) : Prop where
  refused : ∀ {a b}, body a = .refused b → ∀ s, exec a s = (b, s)
  locked : ∀ {a code}, body a = .locked code → ∀ s, code.run s = exec a s

/-! ## The machine -/

/-- The lock word and the memory it protects. -/
structure LockedMemory (σ : Type) where
  held : Bool
  memory : σ

/-- Where an agent is: outside, in front of the lock, or inside with the rest
of its section. -/
inductive Pc (σ α β : Type) where
  | idle
  | called (a : α)
  | inside (a : α) (code : Code σ β)

/-- What of a step is recorded: that a call has its answer. -/
inductive Event (α β : Type) where
  | quiet
  | finished (a : α) (b : β)

/-- The lock, the memory, and where every agent is. -/
abbrev State (ι σ α β : Type) := Config ι (Pc σ α β) (LockedMemory σ)

section Machine

variable [DecidableEq ι]

/-- Let agent `i` go on from `pc`. -/
def goTo (c : State ι σ α β) (i : ι) (shared : LockedMemory σ) (pc : Pc σ α β) :
    State ι σ α β :=
  ⟨shared, Function.update c.control i pc⟩

@[simp] theorem goTo_self (c : State ι σ α β) (i : ι) (shared : LockedMemory σ) (pc : Pc σ α β) :
    (goTo c i shared pc).control i = pc := by
  simp [goTo]

@[simp] theorem goTo_of_ne {i j : ι} (hne : j ≠ i) (c : State ι σ α β) (shared : LockedMemory σ)
    (pc : Pc σ α β) : (goTo c i shared pc).control j = c.control j := by
  simp [goTo, hne]

theorem goTo_goTo (c : State ι σ α β) (i : ι) (shared shared' : LockedMemory σ)
    (pc pc' : Pc σ α β) : goTo (goTo c i shared pc) i shared' pc' = goTo c i shared' pc' := by
  simp [goTo]

/-- One step of one agent. -/
inductive SectionStep (body : α → Body σ β) :
    State ι σ α β → ι × Event α β → State ι σ α β → Prop
  | call {c i} (a : α) (hpc : c.control i = .idle) :
      SectionStep body c (i, .quiet) (goTo c i c.shared (.called a))
  | refuse {c i a b} (hpc : c.control i = .called a) (hbody : body a = .refused b) :
      SectionStep body c (i, .finished a b) (goTo c i c.shared .idle)
  -- The test-and-set finds the lock taken.
  | spin {c i a code} (hpc : c.control i = .called a) (hbody : body a = .locked code)
      (hheld : c.shared.held = true) : SectionStep body c (i, .quiet) c
  | lock {c i a code} (hpc : c.control i = .called a) (hbody : body a = .locked code)
      (hfree : c.shared.held = false) :
      SectionStep body c (i, .quiet) (goTo c i ⟨true, c.shared.memory⟩ (.inside a code))
  | access {c i a write next} (hpc : c.control i = .inside a (.access write next)) :
      SectionStep body c (i, .quiet)
        (goTo c i ⟨c.shared.held, write c.shared.memory⟩ (.inside a (next c.shared.memory)))
  | unlock {c i a b} (hpc : c.control i = .inside a (.ret b)) :
      SectionStep body c (i, .finished a b) (goTo c i ⟨false, c.shared.memory⟩ .idle)

/-- All agents outside, the lock free. -/
def start (s : σ) : State ι σ α β := ⟨⟨false, s⟩, fun _ => .idle⟩

end Machine

/-- The calls that have their answers, in the order in which they got them. -/
def completed (labels : List (ι × Event α β)) : List (ι × α × β) :=
  labels.filterMap fun label =>
    match label.2 with
    | .quiet => none
    | .finished a b => some (label.1, a, b)

/-- A call as a single step. -/
def Atomic (exec : α → σ → β × σ) (s : σ) (call : ι × α × β) (s' : σ) : Prop :=
  exec call.2.1 s = (call.2.2, s')

/-! ## The invariant -/

/-- The agent has accesses to make. -/
def Pc.Inside (pc : Pc σ α β) : Prop := ∃ a code, pc = .inside a code

theorem not_inside_idle : ¬(.idle : Pc σ α β).Inside := nofun

theorem not_inside_called (a : α) : ¬(.called a : Pc σ α β).Inside := nofun

/-- The rest of the section of `a` that began with memory `s`: it leads from the
present memory to where the whole call leads from `s`, and passes through no
memory that the whole section does not pass through. -/
structure Rest (body : α → Body σ β) (exec : α → σ → β × σ) (s : σ) (a : α) (code : Code σ β)
    (memory : σ) : Prop where
  run_eq : code.run memory = exec a s
  on_path : ∃ whole, body a = .locked whole ∧
    ∀ P, whole.Throughout P s → code.Throughout P memory

/-- `s` is the memory after the completed calls.  It is there to see unless
someone is inside, and then the rest of the section leads on from the present
memory. -/
inductive Between (body : α → Body σ β) (exec : α → σ → β × σ) (s : σ) (c : State ι σ α β) :
    Prop
  | free (hfree : c.shared.held = false) (hmemory : c.shared.memory = s)
      (hnone : ∀ j, ¬(c.control j).Inside)
  | taken (i : ι) (a : α) (code : Code σ β) (hheld : c.shared.held = true)
      (hpc : c.control i = .inside a code) (hrest : Rest body exec s a code c.shared.memory)
      (hothers : ∀ j, j ≠ i → ¬(c.control j).Inside)

namespace Between

variable {body : α → Body σ β} {exec : α → σ → β × σ} {s : σ} {c : State ι σ α β} {i : ι}

/-- The agent inside is the one that holds the lock. -/
theorem holder (h : Between body exec s c) {a : α} {code : Code σ β}
    (hpc : c.control i = .inside a code) :
    c.shared.held = true ∧ Rest body exec s a code c.shared.memory ∧
      ∀ j, j ≠ i → ¬(c.control j).Inside := by
  cases h with
  | free _ _ hnone => exact absurd ⟨a, code, hpc⟩ (hnone i)
  | taken i' a' code' hheld hpc' hrest hothers =>
      have hi : i = i' := by
        by_contra hne
        exact hothers i hne ⟨a, code, hpc⟩
      subst hi
      obtain ⟨rfl, rfl⟩ : a = a' ∧ code = code' := by
        rw [hpc] at hpc'
        exact Pc.inside.inj hpc'
      exact ⟨hheld, hrest, hothers⟩

variable [DecidableEq ι]

/-- An agent moves about outside. -/
theorem outside (h : Between body exec s c) {pc : Pc σ α β} (hbefore : ¬(c.control i).Inside)
    (hafter : ¬pc.Inside) : Between body exec s (goTo c i c.shared pc) := by
  have hothers : ∀ j, ¬(c.control j).Inside → ¬((goTo c i c.shared pc).control j).Inside := by
    intro j hj
    by_cases hji : j = i
    · subst hji
      simpa using hafter
    · simpa [hji] using hj
  cases h with
  | free hfree hmemory hnone => exact .free hfree hmemory fun j => hothers j (hnone j)
  | taken i' a code hheld hpc hrest hout =>
      have hne : i' ≠ i := by
        rintro rfl
        exact hbefore ⟨a, code, hpc⟩
      refine .taken i' a code hheld ?_ hrest fun j hj => hothers j (hout j hj)
      simpa [hne] using hpc

/-- The agent that acts is inside afterwards, and nobody else is. -/
theorem of_inside {a : α} {code : Code σ β} {memory : σ}
    (hothers : ∀ j, j ≠ i → ¬(c.control j).Inside) (hrest : Rest body exec s a code memory) :
    Between body exec s (goTo c i ⟨true, memory⟩ (.inside a code)) := by
  refine .taken i a code rfl (goTo_self _ _ _ _) hrest fun j hj => ?_
  simpa [hj] using hothers j hj

/-- The agent that acts has left, and nobody else is inside. -/
theorem of_left {memory : σ} (hothers : ∀ j, j ≠ i → ¬(c.control j).Inside) :
    Between body exec memory (goTo c i ⟨false, memory⟩ .idle) := by
  refine .free rfl rfl fun j => ?_
  by_cases hji : j = i
  · subst hji
    simpa using not_inside_idle
  · simpa [hji] using hothers j hji

end Between

/-! ## Results -/

section Results

variable [DecidableEq ι] {body : α → Body σ β} {exec : α → σ → β × σ}

/-- One step is no step of the functions, or one of them. -/
theorem Between.step (himpl : Implements body exec) {s : σ}
    {c c' : State ι σ α β} {label : ι × Event α β} (h : Between body exec s c)
    (hstep : SectionStep body c label c') :
    (completed [label] = [] ∧ Between body exec s c') ∨
      ∃ call s', completed [label] = [call] ∧ Atomic exec s call s' ∧
        Between body exec s' c' := by
  cases hstep with
  | call a hpc =>
      refine .inl ⟨rfl, h.outside ?_ (not_inside_called a)⟩
      rw [hpc]
      exact not_inside_idle
  | @refuse i a b hpc hbody =>
      refine .inr ⟨(i, a, b), s, rfl, himpl.refused hbody s, h.outside ?_ not_inside_idle⟩
      rw [hpc]
      exact not_inside_called a
  | spin => exact .inl ⟨rfl, h⟩
  | lock hpc hbody hfree =>
      refine .inl ⟨rfl, ?_⟩
      cases h with
      | free _ hmemory hnone =>
          refine Between.of_inside (fun j _ => hnone j) ?_
          rw [hmemory]
          exact ⟨himpl.locked hbody s, _, hbody, fun _ h => h⟩
      | taken _ _ _ hheld =>
          rw [hheld] at hfree
          cases hfree
  | access hpc =>
      obtain ⟨hheld, ⟨hrun, whole, hbody, hpath⟩, hothers⟩ := h.holder hpc
      refine .inl ⟨rfl, ?_⟩
      rw [hheld]
      exact Between.of_inside hothers ⟨hrun, whole, hbody, fun P hwhole => (hpath P hwhole).2⟩
  | @unlock i a b hpc =>
      obtain ⟨-, hrest, hothers⟩ := h.holder hpc
      exact .inr ⟨(i, a, b), c.shared.memory, rfl, hrest.run_eq.symm, Between.of_left hothers⟩

omit [DecidableEq ι] in
theorem Between.start (s : σ) : Between body exec s (start s : State ι σ α β) :=
  .free rfl rfl fun _ => not_inside_idle

/-- **Sections are atomic.**  In every interleaving of the accesses, the calls
in the order of their answers are a run of the functions as single steps. -/
theorem between_of_run (himpl : Implements body exec) {s : σ} {labels : List (ι × Event α β)}
    {c : State ι σ α β} (hrun : Run (SectionStep body) (start s) labels c) :
    ∃ s', Run (Atomic exec) s (completed labels) s' ∧ Between body exec s' c := by
  refine Run.history (P := fun labels c =>
      ∃ s', Run (Atomic exec) s (completed labels) s' ∧ Between body exec s' c)
    ⟨s, .start, .start s⟩ ?_ hrun
  rintro labels label c c' ⟨s', hbefore, hbetween⟩ hstep
  have hsplit : completed (labels ++ [label]) = completed labels ++ completed [label] :=
    List.filterMap_append
  rcases hbetween.step himpl hstep with ⟨hquiet, hafter⟩ | ⟨call, s'', hcall, hatomic, hafter⟩
  · rw [hquiet, List.append_nil] at hsplit
    exact ⟨s', hsplit ▸ hbefore, hafter⟩
  · rw [hcall] at hsplit
    exact ⟨s'', hsplit ▸ hbefore.snoc hatomic, hafter⟩

theorem calls_atomic (himpl : Implements body exec) {s : σ} {labels : List (ι × Event α β)}
    {c : State ι σ α β} (hrun : Run (SectionStep body) (start s) labels c) :
    ∃ s', Run (Atomic exec) s (completed labels) s' ∧
      (c.shared.held = false → c.shared.memory = s') := by
  obtain ⟨s', hatomic, hbetween⟩ := between_of_run himpl hrun
  refine ⟨s', hatomic, fun hfree => ?_⟩
  cases hbetween with
  | free _ hmemory _ => exact hmemory
  | taken _ _ _ hheld =>
      rw [hheld] at hfree
      cases hfree

/-- What every function keeps holds whenever the lock is free. -/
theorem invariant_when_free (himpl : Implements body exec) {P : σ → Prop} {s : σ} (h0 : P s)
    (hexec : ∀ a s, P s → P (exec a s).2) {labels : List (ι × Event α β)}
    {c : State ι σ α β} (hrun : Run (SectionStep body) (start s) labels c)
    (hfree : c.shared.held = false) : P c.shared.memory := by
  obtain ⟨s', hatomic, hmemory⟩ := calls_atomic himpl hrun
  rw [hmemory hfree]
  refine Run.invariant h0 ?_ hatomic
  intro s₁ call s₂ h₁ hcall
  have hkept := hexec call.2.1 s₁ h₁
  rw [hcall] at hkept
  exact hkept

/-! ### What is seen without the lock -/

omit [DecidableEq ι] in
/-- Whoever looks at the memory without the lock finds it as the completed calls
left it, or as it is somewhere in the section under way. -/
theorem Between.seen {s : σ} {c : State ι σ α β} (h : Between body exec s c) :
    c.shared.memory = s ∨ ∃ i a code whole, c.control i = .inside a code ∧
      body a = .locked whole ∧ ∀ P, whole.Throughout P s → P c.shared.memory := by
  cases h with
  | free _ hmemory _ => exact .inl hmemory
  | taken i a code _ hpc hrest _ =>
      obtain ⟨whole, hbody, hpath⟩ := hrest.on_path
      exact .inr ⟨i, a, code, whole, hpc, hbody, fun P hwhole => (hpath P hwhole).now⟩

/-- The call that an agent is busy with. -/
def Pc.call? : Pc σ α β → Option α
  | .idle => none
  | .called a => some a
  | .inside a _ => some a

/-- All calls under way are in `Q`. -/
def Only (Q : α → Prop) (c : State ι σ α β) : Prop :=
  ∀ i a, (c.control i).call? = some a → Q a

theorem SectionStep.call_of_completed {c c' : State ι σ α β} {label : ι × Event α β} {i : ι}
    {a : α} {b : β} (hstep : SectionStep body c label c')
    (hcompleted : completed [label] = [(i, a, b)]) : (c.control i).call? = some a := by
  cases hstep with
  | call | spin | lock | access => cases hcompleted
  | refuse hpc | unlock hpc =>
      obtain ⟨rfl, rfl, -⟩ : _ = i ∧ _ = a ∧ _ = b := by simpa [completed] using hcompleted
      rw [hpc]
      rfl

/-- **What nobody works on can be read without the lock.**  If the sections of
the calls in `Q` leave `view` alone at every access, then `view` stays the same
at every moment as long as only such calls are under way. -/
theorem view_kept {γ : Type} (himpl : Implements body exec) {view : σ → γ} {Q : α → Prop}
    (hview : ∀ {a whole}, Q a → body a = .locked whole → ∀ s,
      whole.Throughout (fun m => view m = view s) s)
    {s : σ} {c₀ : State ι σ α β} (hbetween : Between body exec s c₀) (honly : Only Q c₀)
    {labels : List (ι × Event α β)} {c : State ι σ α β}
    (hrun : Run (fun c label c' => SectionStep body c label c' ∧ Only Q c') c₀ labels c) :
    view c.shared.memory = view s := by
  obtain ⟨s', hbetween', honly', hsame⟩ :
      ∃ s', Between body exec s' c ∧ Only Q c ∧ view s' = view s := by
    refine hrun.invariant (P := fun c => ∃ s', Between body exec s' c ∧ Only Q c ∧
      view s' = view s) ⟨s, hbetween, honly, rfl⟩ ?_
    rintro c₁ label c₂ ⟨s', hbetween', honly₁, hsame⟩ ⟨hstep, honly₂⟩
    rcases hbetween'.step himpl hstep with ⟨-, hafter⟩ | ⟨⟨i, a, b⟩, s'', hcall, hatomic, hafter⟩
    · exact ⟨s', hafter, honly₂, hsame⟩
    · refine ⟨s'', hafter, honly₂, Eq.trans ?_ hsame⟩
      have hquiet : Q a := honly₁ i a (hstep.call_of_completed hcall)
      have hend : (exec a s').2 = s'' := congrArg Prod.snd hatomic
      rw [← hend]
      cases hbody : body a with
      | refused b' => rw [himpl.refused hbody]
      | locked whole =>
          rw [← himpl.locked hbody s']
          exact (hview hquiet hbody s').last
  rcases hbetween'.seen with hmemory | ⟨i, a, code, whole, hpc, hbody, hpath⟩
  · rw [hmemory, hsame]
  · have hquiet : Q a := honly' i a (by rw [hpc]; rfl)
    exact (hpath _ (hview hquiet hbody s')).trans hsame

/-! ### A call made alone -/

/-- An agent that goes on alone makes its accesses and releases the lock. -/
theorem section_completes {i : ι} {a : α} (code : Code σ β) {c : State ι σ α β}
    (hpc : c.control i = .inside a code) :
    ∃ labels c', Run (SectionStep body) c labels c' ∧
      completed labels = [(i, a, (code.run c.shared.memory).1)] ∧
      c' = goTo c i ⟨false, (code.run c.shared.memory).2⟩ .idle := by
  induction code generalizing c with
  | ret b => exact ⟨_, _, .snoc .start (.unlock hpc), rfl, rfl⟩
  | access write next ih =>
      obtain ⟨labels, c', hrun, hcompleted, hend⟩ := ih c.shared.memory
        (goTo_self c i ⟨c.shared.held, write c.shared.memory⟩ _)
      rw [goTo_goTo] at hend
      exact ⟨_, c', .cons (.access hpc) hrun, hcompleted, hend⟩

/-- A call that finds the lock free and is left alone has its answer. -/
theorem call_completes {i : ι} {a : α} {code : Code σ β} (hbody : body a = .locked code)
    {c : State ι σ α β} (hidle : c.control i = .idle) (hfree : c.shared.held = false) :
    ∃ labels c', Run (SectionStep body) c labels c' ∧
      completed labels = [(i, a, (code.run c.shared.memory).1)] ∧
      c' = goTo c i ⟨false, (code.run c.shared.memory).2⟩ .idle := by
  obtain ⟨labels, c', hrun, hcompleted, hend⟩ := section_completes code
    (goTo_self (goTo c i c.shared (.called a)) i ⟨true, c.shared.memory⟩ (.inside a code))
  rw [goTo_goTo, goTo_goTo] at hend
  have hlock := Run.cons (.lock (goTo_self c i c.shared (.called a)) hbody hfree) hrun
  exact ⟨_, c', .cons (.call a hidle) hlock, hcompleted, hend⟩

theorem Only.goTo {Q : α → Prop} {c : State ι σ α β} (h : Only Q c) (i : ι)
    (shared : LockedMemory σ) {pc : Pc σ α β} (hpc : ∀ a, pc.call? = some a → Q a) :
    Only Q (goTo c i shared pc) := by
  intro j a hj
  by_cases hji : j = i
  · rw [hji, goTo_self] at hj
    exact hpc a hj
  · rw [goTo_of_ne hji] at hj
    exact h j a hj

/-- An agent that is left alone for `n` accesses is still inside; the calls under
way stay the same. -/
theorem section_goes_on {Q : α → Prop} {i : ι} {a : α} (n : Nat) (code : Code σ β)
    {c : State ι σ α β} (hpc : c.control i = .inside a code) (honly : Only Q c) :
    ∃ labels, completed labels = [] ∧
      Run (fun c label c' => SectionStep body c label c' ∧ Only Q c') c labels
        (goTo c i ⟨c.shared.held, (code.after n c.shared.memory).2⟩
          (.inside a (code.after n c.shared.memory).1)) := by
  have hstay : goTo c i c.shared (.inside a code) = c := by
    rw [goTo, ← hpc, Function.update_eq_self]
  induction n generalizing code c with
  | zero => exact ⟨[], rfl, by cases code <;> exact hstay.symm ▸ .start⟩
  | succ n ih =>
      cases code with
      | ret b => exact ⟨[], rfl, hstay.symm ▸ .start⟩
      | access write next =>
          have hcall : ∀ a', (Pc.inside a (next c.shared.memory)).call? = some a' → Q a' := by
            intro a' ha'
            exact honly i a' (by rw [hpc]; exact ha')
          have hnext := honly.goTo i ⟨c.shared.held, write c.shared.memory⟩ hcall
          obtain ⟨labels, hquiet, hrun⟩ := ih (next c.shared.memory) (goTo_self ..) hnext
            (by rw [goTo_goTo]; rfl)
          rw [goTo_goTo] at hrun
          exact ⟨(i, .quiet) :: labels, hquiet, .cons ⟨.access hpc, hnext⟩ hrun⟩

/-- A call that finds the lock free, and has made `n` accesses. -/
theorem call_goes_on {Q : α → Prop} {i : ι} {a : α} {code : Code σ β} (n : Nat)
    (hbody : body a = .locked code) {c : State ι σ α β} (hidle : c.control i = .idle)
    (hfree : c.shared.held = false) (honly : Only Q c) (ha : Q a) :
    ∃ labels, completed labels = [] ∧
      Run (fun c label c' => SectionStep body c label c' ∧ Only Q c') c labels
        (goTo c i ⟨true, (code.after n c.shared.memory).2⟩
          (.inside a (code.after n c.shared.memory).1)) := by
  have hcalled := honly.goTo i c.shared
    (show ∀ b, (Pc.called a).call? = some b → Q b from fun _ h => Option.some.inj h ▸ ha)
  have hlocked := hcalled.goTo i ⟨true, c.shared.memory⟩
    (show ∀ b, (Pc.inside a code).call? = some b → Q b from fun _ h => Option.some.inj h ▸ ha)
  obtain ⟨labels, hquiet, hrun⟩ := section_goes_on n code (goTo_self ..) hlocked
  have hlock := Run.cons ⟨.lock (goTo_self c i c.shared (.called a)) hbody hfree, hlocked⟩ hrun
  have hcall := Run.cons ⟨.call a hidle, hcalled⟩ hlock
  rw [goTo_goTo, goTo_goTo] at hcall
  exact ⟨(i, .quiet) :: (i, .quiet) :: labels, hquiet, hcall⟩

/-! ### The lock is not kept -/

/-- No section that is under way makes more than `n` further accesses. -/
def Bounded (n : Nat) (c : State ι σ α β) : Prop :=
  ∀ i a code, c.control i = .inside a code → code.AtMost n

omit [DecidableEq ι] in
theorem bounded_start (n : Nat) (s : σ) : Bounded n (start s : State ι σ α β) := by
  intro i a code h
  cases h

theorem bounded_goTo {n : Nat} {c : State ι σ α β} (h : Bounded n c) {i : ι}
    {shared : LockedMemory σ} {pc : Pc σ α β}
    (hpc : ∀ a code, pc = .inside a code → code.AtMost n) :
    Bounded n (goTo c i shared pc) := by
  intro j a code hj
  by_cases hji : j = i
  · subst hji
    rw [goTo_self] at hj
    exact hpc a code hj
  · rw [goTo_of_ne hji] at hj
    exact h j a code hj

theorem Bounded.step {n : Nat} (hbody : ∀ {a code}, body a = .locked code → code.AtMost n)
    {c c' : State ι σ α β} {label : ι × Event α β} (h : Bounded n c)
    (hstep : SectionStep body c label c') : Bounded n c' := by
  cases hstep with
  | call | refuse | unlock => exact bounded_goTo h nofun
  | spin => exact h
  | lock _ hlocked _ =>
      refine bounded_goTo h ?_
      rintro _ _ ⟨rfl, rfl⟩
      exact hbody hlocked
  | access hpc =>
      refine bounded_goTo h ?_
      rintro _ _ ⟨rfl, rfl⟩
      obtain ⟨m, hm, hnext⟩ := (h _ _ _ hpc).next c.shared.memory
      exact hnext.mono (by omega)

/-- One step, seen from an agent that is inside: another one acts, or it makes
an access, or it has its answer. -/
theorem inside_step {c c' : State ι σ α β} {label : ι × Event α β} {i : ι} {a : α}
    {code : Code σ β} (hpc : c.control i = .inside a code) (hstep : SectionStep body c label c') :
    (label.1 ≠ i ∧ c'.control i = .inside a code) ∨
      (∃ write next, code = .access write next ∧
        c'.control i = .inside a (next c.shared.memory)) ∨
      ∃ b, label = (i, .finished a b) := by
  by_cases hi : label.1 = i
  · cases hstep with
    | call _ hpc' | refuse hpc' _ | spin hpc' _ _ | lock hpc' _ _ =>
        subst hi
        rw [hpc'] at hpc
        cases hpc
    | @access _ _ write next hpc' =>
        subst hi
        rw [hpc'] at hpc
        cases hpc
        exact .inr (.inl ⟨write, next, rfl, Function.update_self _ _ _⟩)
    | @unlock _ _ b hpc' =>
        subst hi
        rw [hpc'] at hpc
        cases hpc
        exact .inr (.inr ⟨b, rfl⟩)
  · refine .inl ⟨hi, ?_⟩
    cases hstep with
    | call | refuse | lock | access | unlock =>
        exact (Function.update_of_ne (Ne.symm hi) _ _).trans hpc
    | spin => exact hpc

/-- An agent that is inside and makes more than `n` steps has its answer. -/
theorem section_ends {n : Nat} {c c' : State ι σ α β} {labels : List (ι × Event α β)} {i : ι}
    {a : α} {code : Code σ β} (hpc : c.control i = .inside a code) (hcode : code.AtMost n)
    (hrun : Run (SectionStep body) c labels c')
    (hsteps : n < labels.countP fun label => decide (label.1 = i)) :
    ∃ b, (i, .finished a b) ∈ labels := by
  -- either it has its answer, or its steps so far and those it has left are at most `n`
  have hleft : (∃ b, (i, .finished a b) ∈ labels) ∨ ∃ m rest, c'.control i = .inside a rest ∧
      rest.AtMost m ∧ (labels.countP fun label => decide (label.1 = i)) + m ≤ n := by
    refine Run.history (P := fun labels c' => (∃ b, (i, .finished a b) ∈ labels) ∨
      ∃ m rest, c'.control i = .inside a rest ∧ rest.AtMost m ∧
        (labels.countP fun label => decide (label.1 = i)) + m ≤ n)
      (.inr ⟨n, code, hpc, hcode, by simp⟩) ?_ hrun
    rintro labels label c₁ c₂ (⟨b, hb⟩ | ⟨m, rest, hpc₁, hrest, hsum⟩) hstep
    · exact .inl ⟨b, List.mem_append_left _ hb⟩
    · rcases inside_step hpc₁ hstep with ⟨hne, hpc₂⟩ | ⟨write, next, rfl, hpc₂⟩ | ⟨b, rfl⟩
      · refine .inr ⟨m, rest, hpc₂, hrest, ?_⟩
        simpa [List.countP_append, hne] using hsum
      · obtain ⟨k, rfl, hnext⟩ := hrest.next c₁.shared.memory
        refine .inr ⟨k, _, hpc₂, hnext, ?_⟩
        have hone : [label].countP (fun label => decide (label.1 = i)) ≤ 1 := List.countP_le_length
        rw [List.countP_append]
        omega
      · exact .inl ⟨b, List.mem_append_right _ (List.mem_singleton_self _)⟩
  rcases hleft with hanswer | ⟨m, rest, -, -, hsum⟩
  · exact hanswer
  · omega

end Results

/-! ## Glances before the lock -/

/-- Where an agent is that may look before it takes the lock. -/
inductive GlancePc (σ α β : Type) where
  | looking (a : α) (code : Code σ (Option β))
  | past (pc : Pc σ α β)

/-- One who looks has not called yet. -/
def GlancePc.pc : GlancePc σ α β → Pc σ α β
  | .looking _ _ => .idle
  | .past pc => pc

abbrev GlanceState (ι σ α β : Type) := Config ι (GlancePc σ α β) (LockedMemory σ)

/-- The state of the lock and of those who want it. -/
def GlanceState.view (c : GlanceState ι σ α β) : State ι σ α β :=
  ⟨c.shared, fun i => (c.control i).pc⟩

/-- What of a step is recorded: a look, an answer by what was seen, or what is
recorded of a step at the lock. -/
inductive GlanceEvent (α β : Type) where
  | looked
  | answered (a : α) (b : β)
  | atLock (e : Event α β)

/-- The steps at the lock. -/
def sectionLabel (label : ι × GlanceEvent α β) : Option (ι × Event α β) :=
  match label.2 with
  | .atLock e => some (label.1, e)
  | _ => none

section Glances

variable [DecidableEq ι]

/-- One step of one agent.  A glance that ends without an answer goes on to the
lock; what a glance might write is not written. -/
inductive GlanceStep (glance : α → Code σ (Option β)) (body : α → Body σ β) :
    GlanceState ι σ α β → ι × GlanceEvent α β → GlanceState ι σ α β → Prop
  | call {c i} (a : α) (hpc : c.control i = .past .idle) :
      GlanceStep glance body c (i, .looked)
        ⟨c.shared, Function.update c.control i (.looking a (glance a))⟩
  | look {c i a write next} (hpc : c.control i = .looking a (.access write next)) :
      GlanceStep glance body c (i, .looked)
        ⟨c.shared, Function.update c.control i (.looking a (next c.shared.memory))⟩
  | answer {c i a b} (hpc : c.control i = .looking a (.ret (some b))) :
      GlanceStep glance body c (i, .answered a b)
        ⟨c.shared, Function.update c.control i (.past .idle)⟩
  | pass {c i a} (hpc : c.control i = .looking a (.ret none)) :
      GlanceStep glance body c (i, .atLock .quiet)
        ⟨c.shared, Function.update c.control i (.past (.called a))⟩
  | atLock {c i pc e s'} (hpc : c.control i = .past pc) (hcalled : pc ≠ .idle)
      (hstep : SectionStep body c.view (i, e) s') :
      GlanceStep glance body c (i, .atLock e)
        ⟨s'.shared, Function.update c.control i (.past (s'.control i))⟩

variable {glance : α → Code σ (Option β)} {body : α → Body σ β}

theorem SectionStep.frame {c c' : State ι σ α β} {label : ι × Event α β}
    (hstep : SectionStep body c label c') {j : ι} (hj : j ≠ label.1) :
    c'.control j = c.control j := by
  cases hstep with
  | spin => rfl
  | call | refuse | lock | access | unlock => exact Function.update_of_ne hj _ _

theorem GlanceState.view_update (c : GlanceState ι σ α β) (i : ι)
    (shared : LockedMemory σ) (pc : GlancePc σ α β) :
    GlanceState.view ⟨shared, Function.update c.control i pc⟩ = goTo c.view i shared pc.pc := by
  unfold GlanceState.view goTo
  congr 1
  funext j
  by_cases hj : j = i
  · subst hj
    simp
  · simp [hj]

/-- Steps that show nothing at the lock leave it alone. -/
theorem GlanceStep.silent {c c' : GlanceState ι σ α β} {label : ι × GlanceEvent α β}
    (hstep : GlanceStep glance body c label c') (hlabel : sectionLabel label = none) :
    c'.view = c.view := by
  have hidle : ∀ {i : ι} {pc : GlancePc σ α β}, (c.control i).pc = .idle → pc.pc = .idle →
      GlanceState.view ⟨c.shared, Function.update c.control i pc⟩ = c.view := by
    intro i pc hbefore hafter
    rw [GlanceState.view_update, hafter, ← hbefore]
    show (⟨c.shared, Function.update c.view.control i (c.view.control i)⟩ : State ι σ α β) = _
    rw [Function.update_eq_self]
    rfl
  cases hstep with
  | call a hpc => exact hidle (by rw [hpc]; rfl) rfl
  | look hpc => exact hidle (by rw [hpc]; rfl) rfl
  | answer hpc => exact hidle (by rw [hpc]; rfl) rfl
  | pass | atLock => cases hlabel

theorem GlanceStep.sectionStep {c c' : GlanceState ι σ α β} {label : ι × GlanceEvent α β}
    {shown : ι × Event α β} (hstep : GlanceStep glance body c label c')
    (hlabel : sectionLabel label = some shown) : SectionStep body c.view shown c'.view := by
  cases hstep with
  | call | look | answer => cases hlabel
  | @pass i a hpc =>
      obtain rfl := Option.some.inj hlabel
      rw [GlanceState.view_update]
      refine .call a ?_
      show (c.control i).pc = .idle
      rw [hpc]
      rfl
  | @atLock i pc e s' hpc hcalled hstep =>
      obtain rfl := Option.some.inj hlabel
      have hsame : GlanceState.view
          ⟨s'.shared, Function.update c.control i (.past (s'.control i))⟩ = s' := by
        rw [GlanceState.view_update]
        unfold goTo
        congr 1
        funext j
        by_cases hj : j = i
        · subst hj
          simp [GlancePc.pc]
        · rw [Function.update_of_ne hj]
          exact (hstep.frame hj).symm
      rw [hsame]
      exact hstep

/-- All agents outside, the lock free. -/
def startGlances (s : σ) : GlanceState ι σ α β := ⟨⟨false, s⟩, fun _ => .past .idle⟩

/-- **Glances change nothing.**  What happens at the lock is a run of the machine
without glances. -/
theorem glances_refine {s : σ} {labels : List (ι × GlanceEvent α β)} {c : GlanceState ι σ α β}
    (hrun : Run (GlanceStep glance body) (startGlances s) labels c) :
    Run (SectionStep body) (start s) (labels.filterMap sectionLabel) c.view :=
  hrun.refines (fun _ _ _ _ hstep hshown => hstep.sectionStep hshown)
    (fun _ _ _ hstep hshown => hstep.silent hshown)

/-- Whatever a glance under way will answer is in `Q`. -/
def GlancePc.Heading (Q : α → Option β → Prop) : GlancePc σ α β → Prop
  | .looking a code => code.Answers (fun _ => True) (Q a)
  | .past _ => True

theorem GlanceStep.heading {Q : α → Option β → Prop}
    (hglance : ∀ a, (glance a).Answers (fun _ => True) (Q a)) {c c' : GlanceState ι σ α β}
    {label : ι × GlanceEvent α β} (hstep : GlanceStep glance body c label c')
    (hheading : ∀ i, (c.control i).Heading Q) :
    (∀ a b, label.2 = .answered a b → Q a (some b)) ∧ ∀ i, (c'.control i).Heading Q := by
  have hmoved : ∀ {i : ι} {pc : GlancePc σ α β}, pc.Heading Q →
      ∀ j, (Function.update c.control i pc j).Heading Q := fun hpc =>
    (Function.forall_update_iff c.control fun _ pc => pc.Heading Q).mpr
      ⟨hpc, fun j _ => hheading j⟩
  cases hstep with
  | call a hpc => exact ⟨nofun, hmoved (hglance a)⟩
  | @look i a write next hpc =>
      have hlooking := hheading i
      rw [hpc] at hlooking
      exact ⟨nofun, hmoved (hlooking c.shared.memory trivial)⟩
  | @answer i a b hpc =>
      have hlooking := hheading i
      rw [hpc] at hlooking
      refine ⟨fun a' b' hlabel => ?_, hmoved trivial⟩
      obtain ⟨rfl, rfl⟩ := GlanceEvent.answered.inj hlabel
      exact hlooking
  | pass | atLock => exact ⟨nofun, hmoved trivial⟩

/-- What a glance answers is one of the answers of its code. -/
theorem glance_answers {Q : α → Option β → Prop}
    (hglance : ∀ a, (glance a).Answers (fun _ => True) (Q a)) {s : σ}
    {labels : List (ι × GlanceEvent α β)} {c : GlanceState ι σ α β}
    (hrun : Run (GlanceStep glance body) (startGlances s) labels c) {i : ι} {a : α} {b : β}
    (hmem : (i, .answered a b) ∈ labels) : Q a (some b) := by
  have hall : (∀ label ∈ labels, ∀ a b, label.2 = .answered a b → Q a (some b)) ∧
      ∀ i, (c.control i).Heading Q := by
    refine hrun.history (P := fun labels c =>
      (∀ label ∈ labels, ∀ a b, label.2 = .answered a b → Q a (some b)) ∧
        ∀ i, (c.control i).Heading Q) ⟨nofun, fun _ => trivial⟩ ?_
    rintro labels label c₁ c₂ ⟨hanswers, hheading⟩ hstep
    obtain ⟨hanswer, hheading'⟩ := hstep.heading hglance hheading
    refine ⟨fun label' hmem => ?_, hheading'⟩
    rcases List.mem_append.mp hmem with hmem | hmem
    · exact hanswers label' hmem
    · rw [List.mem_singleton.mp hmem]
      exact hanswer
  exact hall.1 _ hmem a b rfl

/-! ### A call made alone -/

variable (glance body) in
theorem glance_passes {i : ι} {a : α} {code : Code σ (Option β)} {n : Nat}
    {c : GlanceState ι σ α β} (hpc : c.control i = .looking a code)
    (hseen : code.seen (List.replicate n c.shared.memory) = some (none, [])) :
    ∃ labels, Run (GlanceStep glance body) c labels
        ⟨c.shared, Function.update c.control i (.past (.called a))⟩ ∧
      completed (labels.filterMap sectionLabel) = [] := by
  induction code generalizing c n with
  | ret b =>
      obtain rfl : b = none := by
        cases n with
        | zero => simpa [Code.seen] using hseen
        | succ n => simp [Code.seen, List.replicate_succ] at hseen
      exact ⟨_, .snoc .start (.pass hpc), rfl⟩
  | access write next ih =>
      cases n with
      | zero => cases hseen
      | succ n =>
          obtain ⟨labels, hrun, hcompleted⟩ := ih c.shared.memory (n := n)
            (c := ⟨c.shared, Function.update c.control i (.looking a (next c.shared.memory))⟩)
            (Function.update_self ..) hseen
          rw [Function.update_idem] at hrun
          exact ⟨_, .cons (.look hpc) hrun, hcompleted⟩

omit [DecidableEq ι] in
theorem view_past {c : GlanceState ι σ α β} {i : ι} {pc : Pc σ α β}
    (hpc : c.control i = .past pc) : c.view.control i = pc := by
  show (c.control i).pc = pc
  rw [hpc]
  rfl

theorem GlanceStep.goTo {c : GlanceState ι σ α β} {i : ι} {pc pc' : Pc σ α β} {e : Event α β}
    {shared : LockedMemory σ} (hpc : c.control i = .past pc) (hcalled : pc ≠ .idle)
    (hstep : SectionStep body c.view (i, e) (goTo c.view i shared pc')) :
    GlanceStep glance body c (i, .atLock e)
      ⟨shared, Function.update c.control i (.past pc')⟩ := by
  have h : GlanceStep glance body c (i, .atLock e) _ := .atLock hpc hcalled hstep
  rw [goTo_self] at h
  exact h

variable (glance body) in
theorem past_completes {i : ι} {a : α} (code : Code σ β) {c : GlanceState ι σ α β}
    (hpc : c.control i = .past (.inside a code)) :
    ∃ labels, Run (GlanceStep glance body) c labels
        ⟨⟨false, (code.run c.shared.memory).2⟩, Function.update c.control i (.past .idle)⟩ ∧
      completed (labels.filterMap sectionLabel) = [(i, a, (code.run c.shared.memory).1)] := by
  induction code generalizing c with
  | ret b => exact ⟨_, .snoc .start (.goTo hpc nofun (.unlock (view_past hpc))), rfl⟩
  | access write next ih =>
      obtain ⟨labels, hrun, hcompleted⟩ := ih c.shared.memory
        (c := ⟨⟨c.shared.held, write c.shared.memory⟩,
          Function.update c.control i (.past (.inside a (next c.shared.memory)))⟩)
        (Function.update_self ..)
      rw [Function.update_idem] at hrun
      have hstep : GlanceStep glance body c (i, .atLock .quiet) _ :=
        .goTo hpc nofun (.access (view_past hpc))
      exact ⟨_, .cons hstep hrun, hcompleted⟩

/-- A call that finds the lock free, sees nothing that makes it give up and is
left alone has its answer from its section. -/
theorem glance_call_completes {i : ι} {a : α} {code : Code σ β} (hbody : body a = .locked code)
    {c : GlanceState ι σ α β} (hidle : c.control i = .past .idle) (hfree : c.shared.held = false)
    {n : Nat} (hseen : (glance a).seen (List.replicate n c.shared.memory) = some (none, [])) :
    ∃ labels, Run (GlanceStep glance body) c labels
        ⟨⟨false, (code.run c.shared.memory).2⟩, c.control⟩ ∧
      completed (labels.filterMap sectionLabel) = [(i, a, (code.run c.shared.memory).1)] := by
  have hcall : GlanceStep glance body c (i, .looked) _ := .call a hidle
  obtain ⟨looks, hlooks, hnone⟩ := glance_passes glance body
    (c := ⟨c.shared, Function.update c.control i (.looking a (glance a))⟩)
    (Function.update_self ..) hseen
  rw [Function.update_idem] at hlooks
  have hcalled := Function.update_self i (.past (.called a)) c.control
  have hlock : GlanceStep glance body
      ⟨c.shared, Function.update c.control i (.past (.called a))⟩ (i, .atLock .quiet) _ :=
    .goTo hcalled nofun (.lock (view_past hcalled) hbody hfree)
  obtain ⟨labels, hrun, hcompleted⟩ := past_completes glance body code (i := i) (a := a)
    (c := ⟨⟨true, c.shared.memory⟩, Function.update c.control i (.past (.inside a code))⟩)
    (Function.update_self ..)
  rw [Function.update_idem] at hlock
  rw [Function.update_idem, ← hidle, Function.update_eq_self] at hrun
  refine ⟨_, .cons hcall (hlooks.append (.cons hlock hrun)), ?_⟩
  show completed ((looks ++ (i, .atLock .quiet) :: labels).filterMap sectionLabel) = _
  rw [List.filterMap_append, completed, List.filterMap_append]
  show completed _ ++ completed (labels.filterMap sectionLabel) = _
  rw [hnone, hcompleted]
  rfl

end Glances

end MtRdma.Verified.LockedSections
