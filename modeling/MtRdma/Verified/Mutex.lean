import Mathlib.Logic.Function.Basic

/-!
# Threads that take mutexes

Each thread has a list of instructions to run: take a mutex, release one, or
perform an action of its own kind.  A mutex is not recursive, so a thread that
tries to take one it holds waits for itself for ever.

`Balanced` is the discipline that excludes this: the code of a thread takes no
mutex it holds, releases only what it holds, and ends with nothing held.  Some
actions, those that end a thread or send it back to the head of a loop, may
be performed only with nothing held.  The discipline is about the code of one
thread alone; `Disciplined` says that every thread keeps it, and each way the
code of a thread can move on has one lemma.
-/

namespace MtRdma.Verified.Mutex

variable {θ μ α : Type} [DecidableEq θ] [DecidableEq μ]

/-- One instruction. -/
inductive Op (μ α : Type) where
  | lock (m : μ)
  | unlock (m : μ)
  | act (a : α)

/-- Who holds each mutex, and what each thread still has to run. -/
structure Threads (θ μ α : Type) where
  owner : μ → Option θ
  code : θ → List (Op μ α)

namespace Threads

/-- The mutexes that `t` holds. -/
def held (c : Threads θ μ α) (t : θ) : μ → Bool := fun m => decide (c.owner m = some t)

/-- `t` goes on with `code`. -/
def goTo (c : Threads θ μ α) (t : θ) (code : List (Op μ α)) : Threads θ μ α :=
  { c with code := Function.update c.code t code }

/-- `t` gets `m` and goes on with `rest`. -/
def take (c : Threads θ μ α) (t : θ) (m : μ) (rest : List (Op μ α)) : Threads θ μ α :=
  ⟨Function.update c.owner m (some t), Function.update c.code t rest⟩

/-- `t` gives `m` back and goes on with `rest`. -/
def release (c : Threads θ μ α) (t : θ) (m : μ) (rest : List (Op μ α)) : Threads θ μ α :=
  ⟨Function.update c.owner m none, Function.update c.code t rest⟩

/-- `t` holds `m` and its next instruction takes `m`. -/
def WaitsForOwn (c : Threads θ μ α) (t : θ) (m : μ) : Prop :=
  c.owner m = some t ∧ (c.code t).head? = some (.lock m)

variable {c : Threads θ μ α} {t u : θ} {m : μ} {rest : List (Op μ α)}

omit [DecidableEq μ] in
theorem code_goTo : (c.goTo t rest).code = Function.update c.code t rest := rfl

theorem code_take : (c.take t m rest).code = Function.update c.code t rest := rfl

theorem code_release : (c.release t m rest).code = Function.update c.code t rest := rfl

omit [DecidableEq μ] in
theorem held_goTo : (c.goTo t rest).held = c.held := rfl

theorem held_take_self : (c.take t m rest).held t = Function.update (c.held t) m true := by
  funext m'
  by_cases hm : m' = m
  · simp [held, take, hm]
  · simp [held, take, hm]

theorem held_take_of_ne (hfree : c.owner m = none) (hu : u ≠ t) :
    (c.take t m rest).held u = c.held u := by
  funext m'
  by_cases hm : m' = m
  · simp [held, take, hm, hfree, Ne.symm hu]
  · simp [held, take, hm]

theorem held_release_self : (c.release t m rest).held t = Function.update (c.held t) m false := by
  funext m'
  by_cases hm : m' = m
  · simp [held, release, hm]
  · simp [held, release, hm]

theorem held_release_of_ne (howner : c.owner m = some t) (hu : u ≠ t) :
    (c.release t m rest).held u = c.held u := by
  funext m'
  by_cases hm : m' = m
  · simp [held, release, hm, howner, Ne.symm hu]
  · simp [held, release, hm]

end Threads

/-! ## Code of one thread -/

/-- Code that keeps the discipline when it is entered with `held`; the actions
in `outside` need nothing to be held. -/
def Balanced (outside : α → Prop) : (μ → Bool) → List (Op μ α) → Prop
  | held, [] => ∀ m, held m = false
  | held, .lock m :: rest =>
      held m = false ∧ Balanced outside (Function.update held m true) rest
  | held, .unlock m :: rest =>
      held m = true ∧ Balanced outside (Function.update held m false) rest
  | held, .act a :: rest =>
      (outside a → ∀ m, held m = false) ∧ Balanced outside held rest

/-- A critical section that performs `acts`. -/
def critical (m : μ) (acts : List α) : List (Op μ α) :=
  .lock m :: (acts.map .act ++ [.unlock m])

variable {outside : α → Prop}

omit [DecidableEq θ] in
theorem Balanced.append {ys : List (Op μ α)} (hys : Balanced outside (fun _ => false) ys)
    (xs : List (Op μ α)) :
    ∀ held, Balanced outside held xs → Balanced outside held (xs ++ ys) := by
  induction xs with
  | nil =>
      intro held hxs
      obtain rfl : held = fun _ => false := funext hxs
      exact hys
  | cons x xs ih =>
      intro held hxs
      cases x with
      | lock | unlock | act => exact ⟨hxs.1, ih _ hxs.2⟩

/-- A critical section whose actions may be performed inside one. -/
theorem Balanced.critical (m : μ) {acts : List α} (hacts : ∀ a ∈ acts, ¬outside a) :
    Balanced outside (fun _ => false) (critical m acts) := by
  refine ⟨rfl, ?_⟩
  induction acts with
  | nil =>
      refine ⟨by simp, ?_⟩
      intro m'
      by_cases h : m' = m
      · simp [h]
      · simp [h]
  | cons a acts ih =>
      refine ⟨fun ha => absurd ha (hacts a List.mem_cons_self), ?_⟩
      exact ih fun a' ha' => hacts a' (List.mem_cons_of_mem a ha')

/-! ## All threads -/

/-- Every thread keeps the discipline from where it is. -/
def Disciplined (outside : α → Prop) (c : Threads θ μ α) : Prop :=
  ∀ t, Balanced outside (c.held t) (c.code t)

variable {c : Threads θ μ α} {t : θ} {m : μ} {rest : List (Op μ α)}

/-- **No thread waits for itself.** -/
theorem Disciplined.not_waitsForOwn (h : Disciplined outside c) : ¬c.WaitsForOwn t m := by
  rintro ⟨howner, hnext⟩
  have hcode := h t
  cases hc : c.code t with
  | nil =>
      rw [hc] at hnext
      cases hnext
  | cons op rest =>
      rw [hc] at hnext hcode
      obtain rfl : op = .lock m := Option.some.inj hnext
      have hfree : decide (c.owner m = some t) = false := hcode.1
      exact of_decide_eq_false hfree howner

/-- A step of `t` that leaves the other threads alone. -/
theorem Disciplined.of_frame (h : Disciplined outside c)
    {c' : Threads θ μ α} (hframe : ∀ u, u ≠ t → c'.held u = c.held u ∧ c'.code u = c.code u)
    (hself : Balanced outside (c'.held t) (c'.code t)) : Disciplined outside c' := by
  intro u
  by_cases hu : u = t
  · rw [hu]
    exact hself
  · rw [(hframe u hu).1, (hframe u hu).2]
    exact h u

/-- One thread goes on with code that fits what it holds. -/
theorem Disciplined.goTo (h : Disciplined outside c) {code : List (Op μ α)}
    (hcode : Balanced outside (c.held t) code) : Disciplined outside (c.goTo t code) := by
  refine h.of_frame (t := t) ?_ ?_
  · intro u hu
    rw [Threads.code_goTo, Function.update_of_ne hu]
    exact ⟨rfl, rfl⟩
  · rw [Threads.held_goTo, Threads.code_goTo, Function.update_self]
    exact hcode

theorem Disciplined.take (h : Disciplined outside c) (hnext : c.code t = .lock m :: rest)
    (hfree : c.owner m = none) : Disciplined outside (c.take t m rest) := by
  refine h.of_frame (t := t) ?_ ?_
  · intro u hu
    rw [Threads.code_take, Function.update_of_ne hu]
    exact ⟨Threads.held_take_of_ne hfree hu, rfl⟩
  · have hcode := h t
    rw [hnext] at hcode
    rw [Threads.held_take_self, Threads.code_take, Function.update_self]
    exact hcode.2

theorem Disciplined.release (h : Disciplined outside c)
    (hnext : c.code t = .unlock m :: rest) : Disciplined outside (c.release t m rest) := by
  have hcode := h t
  rw [hnext] at hcode
  have howner : c.owner m = some t := of_decide_eq_true hcode.1
  refine h.of_frame (t := t) ?_ ?_
  · intro u hu
    rw [Threads.code_release, Function.update_of_ne hu]
    exact ⟨Threads.held_release_of_ne howner hu, rfl⟩
  · rw [Threads.held_release_self, Threads.code_release, Function.update_self]
    exact hcode.2

/-- A thread that has ended holds nothing. -/
theorem Disciplined.held_of_ended (h : Disciplined outside c) (hcode : c.code t = []) (m : μ) :
    c.held t m = false := by
  have hbalanced := h t
  rw [hcode] at hbalanced
  exact hbalanced m

end MtRdma.Verified.Mutex
