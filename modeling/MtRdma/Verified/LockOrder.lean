import Mathlib.Algebra.BigOperators.Fin
import MtRdma.Verified.Mutex
import MtRdma.Verified.Runs

/-!
# Mutexes taken in order

Threads that take several mutexes at a time can wait for each other in a circle.
They cannot if the mutexes have ranks and every thread that takes one holds only
mutexes of lower rank.

`Ordered` is this discipline for the code of one thread.  It implies that no
thread takes a mutex twice, so threads that keep it are never stuck:

* `progress`: as long as a thread has something to run, some thread can make a
  step.  The ranks are bounded; the number of threads need not be.
* `run_length`: a step runs one instruction, so a run of finitely many threads is
  no longer than all their code, whatever the schedule.
* `completes`: every run can be continued until all threads are done.
-/

namespace MtRdma.Verified.LockOrder

open Mutex
open Runs

variable {θ μ α : Type} [DecidableEq θ] [DecidableEq μ]

/-- One instruction of one thread.  A thread whose next mutex is taken waits. -/
inductive LockStep : Threads θ μ α → θ → Threads θ μ α → Prop
  | take {c t m rest} (hcode : c.code t = .lock m :: rest) (hfree : c.owner m = none) :
      LockStep c t (c.take t m rest)
  | release {c t m rest} (hcode : c.code t = .unlock m :: rest) :
      LockStep c t (c.release t m rest)
  | act {c t a rest} (hcode : c.code t = .act a :: rest) : LockStep c t (c.goTo t rest)

/-- Code that takes mutexes in the order of their ranks when it is entered with
`held`, gives back only what it holds, and ends with nothing held. -/
def Ordered (rank : μ → Nat) : (μ → Bool) → List (Op μ α) → Prop
  | held, [] => ∀ m, held m = false
  | held, .lock m :: rest =>
      (∀ m', held m' = true → rank m' < rank m) ∧ Ordered rank (Function.update held m true) rest
  | held, .unlock m :: rest =>
      held m = true ∧ Ordered rank (Function.update held m false) rest
  | held, .act _ :: rest => Ordered rank held rest

variable {rank : μ → Nat}

omit [DecidableEq θ] in
theorem Ordered.append {ys : List (Op μ α)} (hys : Ordered rank (fun _ => false) ys)
    (xs : List (Op μ α)) :
    ∀ held, Ordered rank held xs → Ordered rank held (xs ++ ys) := by
  induction xs with
  | nil =>
      intro held hxs
      obtain rfl : held = fun _ => false := funext hxs
      exact hys
  | cons x xs ih =>
      intro held hxs
      cases x with
      | lock | unlock => exact ⟨hxs.1, ih _ hxs.2⟩
      | act a => exact ih _ hxs

/-- A critical section entered with nothing held. -/
theorem Ordered.critical (m : μ) (acts : List α) :
    Ordered rank (fun _ => false) (critical m acts) := by
  refine ⟨by simp, ?_⟩
  induction acts with
  | nil => exact ⟨by simp, by simp [Function.update_apply, Ordered]⟩
  | cons a acts ih => exact ih

/-- Code that takes only mutexes above `m`, run while `m` is held. -/
theorem Ordered.above {m : μ} {xs : List (Op μ α)}
    (hxs : ∀ m', .lock m' ∈ xs → rank m < rank m') :
    ∀ {held}, held m = false → Ordered rank held xs →
      Ordered rank (Function.update held m true) (xs ++ [.unlock m]) := by
  induction xs with
  | nil =>
      intro held hm hordered
      have hback : Function.update (Function.update held m true) m false = held := by
        rw [Function.update_idem, ← hm, Function.update_eq_self]
      refine ⟨Function.update_self .., ?_⟩
      rw [hback]
      exact hordered
  | cons x xs ih =>
      have hrest : ∀ m', .lock m' ∈ xs → rank m < rank m' :=
        fun m' h => hxs m' (List.mem_cons_of_mem x h)
      intro held hm hordered
      cases x with
      | lock m' =>
          have hlt := hxs m' List.mem_cons_self
          have hne : m' ≠ m := by
            rintro rfl
            omega
          refine ⟨fun m'' hheld => ?_, ?_⟩
          · by_cases h : m'' = m
            · exact h ▸ hlt
            · rw [Function.update_of_ne h] at hheld
              exact hordered.1 m'' hheld
          · rw [Function.update_comm hne.symm]
            exact ih hrest (by rw [Function.update_of_ne hne.symm, hm]) hordered.2
      | unlock m' =>
          have hne : m' ≠ m := by
            rintro rfl
            exact absurd hordered.1 (by simp [hm])
          refine ⟨by rw [Function.update_of_ne hne, hordered.1], ?_⟩
          rw [Function.update_comm hne.symm]
          exact ih hrest (by rw [Function.update_of_ne hne.symm, hm]) hordered.2
      | act a => exact ih hrest hm hordered

/-- A mutex held around code that takes only mutexes above it. -/
theorem Ordered.around {m : μ} {xs : List (Op μ α)}
    (hxs : ∀ m', .lock m' ∈ xs → rank m < rank m') (hordered : Ordered rank (fun _ => false) xs) :
    Ordered rank (fun _ => false) (.lock m :: (xs ++ [.unlock m])) :=
  ⟨by simp, Ordered.above hxs rfl hordered⟩

theorem Ordered.flatMap {β : Type} {f : β → List (Op μ α)} (bs : List β)
    (hf : ∀ b ∈ bs, Ordered rank (fun _ => false) (f b)) :
    Ordered rank (fun _ => false) (bs.flatMap f) := by
  induction bs with
  | nil => exact fun _ => rfl
  | cons b bs ih =>
      rw [List.flatMap_cons]
      have hlater := ih fun b' hb' => hf b' (List.mem_cons_of_mem b hb')
      exact Ordered.append hlater _ _ (hf b List.mem_cons_self)

/-! ## All threads -/

/-- Every thread keeps the order from where it is. -/
def AllOrdered (rank : μ → Nat) (c : Threads θ μ α) : Prop :=
  ∀ t, Ordered rank (c.held t) (c.code t)

variable {c c' : Threads θ μ α} {t : θ}

/-- What a step leaves alone. -/
theorem LockStep.frame (hordered : AllOrdered rank c) (hstep : LockStep c t c') {u : θ}
    (hu : u ≠ t) : c'.held u = c.held u ∧ c'.code u = c.code u := by
  cases hstep with
  | take hcode hfree =>
      exact ⟨Threads.held_take_of_ne hfree hu, Function.update_of_ne hu _ _⟩
  | release hcode =>
      have hnext := hordered t
      rw [hcode] at hnext
      have howner := of_decide_eq_true hnext.1
      exact ⟨Threads.held_release_of_ne howner hu, Function.update_of_ne hu _ _⟩
  | act hcode => exact ⟨rfl, Function.update_of_ne hu _ _⟩

theorem AllOrdered.step (hordered : AllOrdered rank c) (hstep : LockStep c t c') :
    AllOrdered rank c' := by
  intro u
  by_cases hu : u = t
  · subst hu
    have hnext := hordered u
    cases hstep with
    | take hcode hfree =>
        rw [hcode] at hnext
        rw [Threads.held_take_self, Threads.code_take, Function.update_self]
        exact hnext.2
    | release hcode =>
        rw [hcode] at hnext
        rw [Threads.held_release_self, Threads.code_release, Function.update_self]
        exact hnext.2
    | act hcode =>
        rw [hcode] at hnext
        rw [Threads.held_goTo, Threads.code_goTo, Function.update_self]
        exact hnext
  · obtain ⟨hheld, hcode⟩ := hstep.frame hordered hu
    rw [hheld, hcode]
    exact hordered u

theorem AllOrdered.run (hordered : AllOrdered rank c) {schedule : List θ}
    (hrun : Run LockStep c schedule c') : AllOrdered rank c' :=
  hrun.invariant hordered fun _ _ _ h hstep => h.step hstep

/-- At the end nothing is held. -/
theorem AllOrdered.free (hordered : AllOrdered rank c) (hdone : ∀ t, c.code t = []) (m : μ) :
    c.owner m = none := by
  by_contra htaken
  obtain ⟨u, howner⟩ := Option.ne_none_iff_exists'.mp htaken
  have hnext := hordered u
  rw [hdone u] at hnext
  exact absurd howner (of_decide_eq_false (hnext m))

/-- A thread that cannot make a step waits for a mutex that someone holds. -/
theorem waits_of_stuck (hstuck : ∀ t c', ¬LockStep c t c') (hcode : c.code t ≠ []) :
    ∃ m rest u, c.code t = .lock m :: rest ∧ c.owner m = some u := by
  cases hc : c.code t with
  | nil => exact absurd hc hcode
  | cons op rest =>
      cases op with
      | lock m =>
          cases howner : c.owner m with
          | none => exact absurd (.take hc howner) (hstuck t _)
          | some u => exact ⟨m, rest, u, rfl, howner⟩
      | unlock m => exact absurd (.release hc) (hstuck t _)
      | act a => exact absurd (.act hc) (hstuck t _)

/-- If nobody can make a step, the holder of a mutex waits for one of higher rank. -/
theorem higher_of_stuck (hordered : AllOrdered rank c) (hstuck : ∀ t c', ¬LockStep c t c')
    {m : μ} {u : θ} (howner : c.owner m = some u) :
    ∃ m' u', c.owner m' = some u' ∧ rank m < rank m' := by
  have hheld : c.held u m = true := decide_eq_true howner
  have hnext := hordered u
  have hcode : c.code u ≠ [] := by
    intro hnil
    rw [hnil] at hnext
    exact absurd (hnext m) (by simp [hheld])
  obtain ⟨m', rest, u', hlock, howner'⟩ := waits_of_stuck hstuck hcode
  rw [hlock] at hnext
  exact ⟨m', u', howner', hnext.1 m hheld⟩

theorem free_of_stuck (hordered : AllOrdered rank c) (hstuck : ∀ t c', ¬LockStep c t c')
    {bound : Nat} (hbound : ∀ m, rank m ≤ bound) :
    ∀ n m, bound < rank m + n → c.owner m = none := by
  -- by induction on how far the rank of the mutex is from the bound
  intro n
  induction n with
  | zero =>
      intro m hm
      exact absurd (hbound m) (by omega)
  | succ n ih =>
      intro m hm
      by_contra htaken
      obtain ⟨u, howner⟩ := Option.ne_none_iff_exists'.mp htaken
      obtain ⟨m', u', howner', hlt⟩ := higher_of_stuck hordered hstuck howner
      rw [ih m' (by omega)] at howner'
      contradiction

/-- **No circle of waiting threads.**  While a thread has something to run, some
thread can make a step. -/
theorem progress (hordered : AllOrdered rank c) {bound : Nat} (hbound : ∀ m, rank m ≤ bound)
    (hcode : c.code t ≠ []) : ∃ u c', LockStep c u c' := by
  by_contra hnone
  have hstuck : ∀ u c', ¬LockStep c u c' := fun u c' hstep => hnone ⟨u, c', hstep⟩
  obtain ⟨m, rest, u, -, howner⟩ := waits_of_stuck hstuck hcode
  rw [free_of_stuck hordered hstuck hbound (bound + 1) m (by omega)] at howner
  contradiction

/-! ## The end of all runs -/

section Finite

variable [Fintype θ]

/-- The instructions that are left. -/
def left (c : Threads θ μ α) : Nat := ∑ t, (c.code t).length

omit [DecidableEq μ] in
theorem left_of_code {op : Op μ α} {rest : List (Op μ α)} (hcode : c.code t = op :: rest)
    (hcode' : c'.code = Function.update c.code t rest) : left c' + 1 = left c := by
  have hsum := Finset.sum_update_of_mem (Finset.mem_univ t) (fun u => (c.code u).length) rest.length
  have hlengths : (fun u => (c'.code u).length) =
      Function.update (fun u => (c.code u).length) t rest.length := by
    funext u
    rw [hcode']
    by_cases hu : u = t
    · subst hu
      simp
    · simp [hu]
  have hall := Finset.sum_eq_add_sum_sdiff_singleton_of_mem (Finset.mem_univ t)
    (fun u => (c.code u).length)
  rw [left, left, hlengths, hsum, hall, hcode, List.length_cons]
  omega

theorem left_step (hstep : LockStep c t c') : left c' + 1 = left c := by
  cases hstep with
  | take hcode hfree => exact left_of_code hcode Threads.code_take
  | release hcode => exact left_of_code hcode Threads.code_release
  | act hcode => exact left_of_code hcode Threads.code_goTo

/-- What a run has run and what is left is all the code there was. -/
theorem run_length {schedule : List θ} (hrun : Run LockStep c schedule c') :
    left c' + schedule.length = left c := by
  refine hrun.history (P := fun schedule c' => left c' + schedule.length = left c) rfl ?_
  intro schedule t c₁ c₂ hbefore hstep
  have hless := left_step hstep
  rw [List.length_append, List.length_singleton]
  omega

/-- **Everything completes.**  Threads that keep the order can go on until all of
them are done. -/
theorem completes {bound : Nat} (hbound : ∀ m, rank m ≤ bound) (hordered : AllOrdered rank c) :
    ∃ schedule c', Run LockStep c schedule c' ∧ ∀ t, c'.code t = [] := by
  induction hn : left c generalizing c with
  | zero =>
      refine ⟨[], c, .start, fun t => ?_⟩
      have hlength := Finset.sum_eq_zero_iff.mp hn t (Finset.mem_univ t)
      exact List.eq_nil_of_length_eq_zero hlength
  | succ n ih =>
      obtain ⟨t, hcode⟩ : ∃ t, c.code t ≠ [] := by
        by_contra hdone
        have hnone : left c = 0 := Finset.sum_eq_zero fun t _ => by
          rw [not_not.mp (not_exists.mp hdone t), List.length_nil]
        omega
      obtain ⟨u, c₁, hstep⟩ := progress hordered hbound hcode
      have hless := left_step hstep
      obtain ⟨schedule, c', hrun, hdone⟩ := ih (hordered.step hstep) (by omega)
      exact ⟨u :: schedule, c', hrun.cons hstep, hdone⟩

end Finite

end MtRdma.Verified.LockOrder
