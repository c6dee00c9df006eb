import Mathlib.Data.List.Basic
import Mathlib.Data.List.Forall2

/-!
# Code as the accesses it makes

A function over shared memory is a sequence of accesses: each one looks at the
memory, may rewrite it, and decides by what it saw how the function goes on.
`Code` is that sequence as a tree.  It has two readings.

* `Code.run` is the function when nobody else acts.
* `Code.seen` is the function when others do what they like between its
  accesses: it is given the memory of each access.  Its own writes are nobody's
  business here, so this is a reading for code that only looks.

The combinators are the statements of the functions to be modelled: `read` and
`write`, a loop without exits (`each`), a search (`first`), and a loop that
collects what it finds (`collect`).

`Throughout P` says that `P` holds before and after every access of a run on its
own, and `Answers P Q` that the answer satisfies `Q` if every memory that is seen
satisfies `P`.
-/

namespace MtRdma.Verified.AccessCode

variable {σ β γ ε : Type} {n : Nat}

/-- An answer, or one access and what follows it. -/
inductive Code (σ β : Type) where
  | ret (b : β)
  | access (write : σ → σ) (next : σ → Code σ β)

namespace Code

/-- The answer, and the memory afterwards, when nobody else acts. -/
def run : Code σ β → σ → β × σ
  | .ret b, s => (b, s)
  | .access write next, s => (next s).run (write s)

/-- What is left of the code after `n` accesses, and the memory then, when nobody
else acts. -/
def after : Code σ β → Nat → σ → Code σ β × σ
  | c, 0, s => (c, s)
  | .ret b, _ + 1, s => (.ret b, s)
  | .access write next, n + 1, s => (next s).after n (write s)

def bind : Code σ β → (β → Code σ γ) → Code σ γ
  | .ret b, k => k b
  | .access write next, k => .access write fun s => (next s).bind k

instance : Monad (Code σ) where
  pure := .ret
  bind := .bind

/-- An access that only looks. -/
def read (f : σ → β) : Code σ β := .access id fun s => .ret (f s)

/-- An access that only writes. -/
def write (f : σ → σ) : Code σ Unit := .access f fun _ => .ret ()

/-- A loop without exits. -/
def each (body : γ → Code σ Unit) : List γ → Code σ Unit
  | [] => pure ()
  | x :: xs => do
      body x
      each body xs

/-- A loop that ends at the first element for which `test` answers yes. -/
def first (test : γ → Code σ Bool) : List γ → Code σ (Option γ)
  | [] => pure none
  | x :: xs => do
      if ← test x then return some x
      first test xs

/-- A loop that collects what `visit` finds; `count` have been found so far, and
the loop goes on as long as `more` allows that many. -/
def collect (visit : γ → Code σ (Option ε)) (more : Nat → Bool) : Nat → List γ → Code σ (List ε)
  | _, [] => pure []
  | count, x :: xs =>
      if more count then do
        match ← visit x with
        | none => collect visit more count xs
        | some e => return e :: (← collect visit more (count + 1) xs)
      else pure []

/-! ## Undisturbed -/

@[simp] theorem run_pure (b : β) (s : σ) : (pure b : Code σ β).run s = (b, s) := rfl

@[simp] theorem run_read (f : σ → β) (s : σ) : (read f).run s = (f s, s) := rfl

@[simp] theorem run_write (f : σ → σ) (s : σ) : (write f).run s = ((), f s) := rfl

@[simp] theorem run_bind (c : Code σ β) (k : β → Code σ γ) (s : σ) :
    (c >>= k).run s = (k (c.run s).1).run (c.run s).2 := by
  show (c.bind k).run s = _
  induction c generalizing s with
  | ret b => rfl
  | access write next ih => exact ih s (write s)

theorem run_each (body : γ → Code σ Unit) (xs : List γ) (s : σ) :
    (each body xs).run s = ((), xs.foldl (fun s x => ((body x).run s).2) s) := by
  induction xs generalizing s with
  | nil => rfl
  | cons x xs ih =>
      rw [each, run_bind, ih]
      rfl

/-- A search whose test only looks finds the first element that passes. -/
theorem run_first {test : γ → Code σ Bool} {p : γ → Bool} {s : σ}
    (htest : ∀ x, (test x).run s = (p x, s)) (xs : List γ) :
    (first test xs).run s = (xs.find? p, s) := by
  induction xs with
  | nil => rfl
  | cons x xs ih =>
      rw [first, run_bind, htest]
      by_cases hx : p x = true
      · simp [hx]
      · simp [hx, ih]

/-- A collection up to `cap` whose visits only look has the first finds. -/
theorem run_collect {visit : γ → Code σ (Option ε)} {found : γ → Option ε} {s : σ}
    (hvisit : ∀ x, (visit x).run s = (found x, s)) (cap : Nat) (xs : List γ) :
    ∀ count, (collect visit (fun n => decide (n < cap)) count xs).run s =
      ((xs.filterMap found).take (cap - count), s) := by
  induction xs with
  | nil => simp [collect]
  | cons x xs ih =>
      intro count
      rw [collect]
      by_cases hmore : count < cap
      · rw [if_pos (decide_eq_true hmore), run_bind, hvisit]
        cases hx : found x with
        | none => simp [ih count, hx]
        | some e =>
            have hleft : cap - count = cap - (count + 1) + 1 := by omega
            simp [ih (count + 1), hx, hleft]
      · have hleft : cap - count = 0 := by omega
        rw [if_neg (by simp [hmore]), hleft]
        rfl

/-- A loop that carries a value and only looks. -/
theorem run_foldlM {body : ε → γ → Code σ ε} {step : ε → γ → ε} {s : σ}
    (hbody : ∀ e x, (body e x).run s = (step e x, s)) (xs : List γ) (e : ε) :
    (xs.foldlM body e).run s = (xs.foldl step e, s) := by
  induction xs generalizing e with
  | nil => rfl
  | cons x xs ih =>
      rw [List.foldlM_cons, run_bind, hbody]
      exact ih (step e x)

/-! ## Every memory on the way -/

/-- Every memory that the code comes to when nobody else acts is in `P`. -/
def Throughout (P : σ → Prop) : Code σ β → σ → Prop
  | .ret _, s => P s
  | .access write next, s => P s ∧ (next s).Throughout P (write s)

theorem Throughout.now {P : σ → Prop} {c : Code σ β} {s : σ} (h : c.Throughout P s) : P s := by
  cases c with
  | ret b => exact h
  | access write next => exact h.1

theorem throughout_read_bind {P : σ → Prop} {f : σ → β} {k : β → Code σ γ} {s : σ} :
    (read f >>= k).Throughout P s ↔ P s ∧ (k (f s)).Throughout P s := Iff.rfl

theorem Throughout.imp {P Q : σ → Prop} {c : Code σ β} {s : σ} (h : c.Throughout P s)
    (himp : ∀ s, P s → Q s) : c.Throughout Q s := by
  induction c generalizing s with
  | ret b => exact himp s h
  | access write next ih => exact ⟨himp s h.1, ih s h.2⟩

/-- One piece of code after the other. -/
theorem throughout_bind {P : σ → Prop} {c : Code σ β} {k : β → Code σ γ} {s : σ} :
    (c >>= k).Throughout P s ↔
      c.Throughout P s ∧ (k (c.run s).1).Throughout P (c.run s).2 := by
  show (c.bind k).Throughout P s ↔ _
  induction c generalizing s with
  | ret b => exact ⟨fun h => ⟨h.now, h⟩, And.right⟩
  | access write next ih =>
      show P s ∧ ((next s).bind k).Throughout P (write s) ↔
        (P s ∧ (next s).Throughout P (write s)) ∧ _
      rw [ih, and_assoc]
      rfl

theorem Throughout.last {P : σ → Prop} {c : Code σ β} {s : σ} (h : c.Throughout P s) :
    P (c.run s).2 := by
  induction c generalizing s with
  | ret b => exact h
  | access write next ih => exact ih s h.2

theorem Throughout.returning {P : σ → Prop} {c : Code σ β} {s : σ} (h : c.Throughout P s)
    (f : β → γ) : (c >>= fun b => pure (f b)).Throughout P s :=
  throughout_bind.mpr ⟨h, h.last⟩

/-- A loop whose body keeps `I` between its turns, and `P` during them. -/
theorem throughout_each {P I : σ → Prop} {body : γ → Code σ Unit} (hI : ∀ {s}, I s → P s)
    (hbody : ∀ x {s}, I s → (body x).Throughout P s ∧ I ((body x).run s).2) (xs : List γ) {s : σ}
    (hs : I s) : (each body xs).Throughout P s := by
  induction xs generalizing s with
  | nil => exact hI hs
  | cons x xs ih => exact throughout_bind.mpr ⟨(hbody x hs).1, ih (hbody x hs).2⟩

/-- The code comes to no memory outside `P` from one in `P`. -/
def Keeps (P : σ → Prop) (c : Code σ β) : Prop := ∀ s, P s → c.Throughout P s

theorem Keeps.pure (P : σ → Prop) (b : β) : Keeps P (pure b : Code σ β) := fun _ h => h

theorem Keeps.write {P : σ → Prop} {f : σ → σ} (hf : ∀ s, P s → P (f s)) : Keeps P (write f) :=
  fun s h => ⟨h, hf s h⟩

theorem Keeps.bind {P : σ → Prop} {c : Code σ β} {k : β → Code σ γ} (hc : Keeps P c)
    (hk : ∀ b, Keeps P (k b)) : Keeps P (c >>= k) :=
  fun s h => throughout_bind.mpr ⟨hc s h, hk _ _ (hc s h).last⟩

theorem Keeps.read_bind {P : σ → Prop} {f : σ → β} {k : β → Code σ γ} (hk : ∀ b, Keeps P (k b)) :
    Keeps P (read f >>= k) :=
  fun s h => ⟨h, hk (f s) s h⟩

theorem Keeps.ite {P : σ → Prop} {p : Prop} [Decidable p] {c d : Code σ β} (hc : Keeps P c)
    (hd : Keeps P d) : Keeps P (if p then c else d) := by
  split
  · exact hc
  · exact hd

/-! ## Amid the steps of others -/

/-- The answer when the accesses find the memories `ms`, one each, and the
memories that were not needed; `none` if there were too few. -/
def seen : Code σ β → List σ → Option (β × List σ)
  | .ret b, ms => some (b, ms)
  | .access _ _, [] => none
  | .access _ next, m :: ms => (next m).seen ms

@[simp] theorem seen_pure (b : β) (ms : List σ) : (pure b : Code σ β).seen ms = some (b, ms) := by
  cases ms with
  | nil | cons => rfl

theorem seen_bind (c : Code σ β) (k : β → Code σ γ) (ms : List σ) :
    (c >>= k).seen ms = (c.seen ms).bind fun r => (k r.1).seen r.2 := by
  show (c.bind k).seen ms = _
  induction c generalizing ms with
  | ret b => cases ms with
    | nil | cons => rfl
  | access write next ih => cases ms with
    | nil => rfl
    | cons m ms => exact ih m ms

/-- One look. -/
theorem seen_read_bind (f : σ → β) (k : β → Code σ γ) (m : σ) (ms : List σ) :
    (read f >>= k).seen (m :: ms) = (k (f m)).seen ms := by
  rw [seen_bind]
  rfl

/-- The memories that a piece of code needed come first. -/
theorem seen_split {c : Code σ β} {ms rest : List σ} {b : β} (h : c.seen ms = some (b, rest)) :
    ∃ used, ms = used ++ rest ∧ c.seen used = some (b, []) := by
  induction c generalizing ms with
  | ret b' =>
      have hsame : b' = b ∧ ms = rest := by
        cases ms with
        | nil | cons => simpa [seen] using h
      obtain ⟨rfl, rfl⟩ := hsame
      exact ⟨[], rfl, rfl⟩
  | access write next ih =>
      cases ms with
      | nil => cases h
      | cons m ms =>
          obtain ⟨used, hms, hused⟩ := ih m h
          exact ⟨m :: used, by rw [hms, List.cons_append], hused⟩

/-- Each element is visited once, with memories that come one after the other,
and what is found is collected in order. -/
theorem seen_collect {visit : γ → Code σ (Option ε)} (xs : List γ) :
    ∀ {count : Nat} {ms rest : List σ} {es : List ε},
      (collect visit (fun _ => true) count xs).seen ms = some (es, rest) →
      ∃ finds, List.Forall₂ (fun x r => ∃ used, used ⊆ ms ∧ (visit x).seen used = some (r, []))
        xs finds ∧ es = finds.filterMap id := by
  induction xs with
  | nil =>
      intro count ms rest es h
      rw [collect, seen_pure] at h
      obtain ⟨rfl, -⟩ := Prod.mk.inj (Option.some.inj h)
      exact ⟨[], .nil, rfl⟩
  | cons x xs ih =>
      intro count ms rest es h
      rw [collect, if_pos rfl, seen_bind, Option.bind_eq_some_iff] at h
      obtain ⟨⟨r, later⟩, hvisit, hgoOn⟩ := h
      obtain ⟨used, hms, hused⟩ := seen_split hvisit
      have hlater : later ⊆ ms := hms ▸ List.subset_append_right used later
      have hhere : ∃ used, used ⊆ ms ∧ (visit x).seen used = some (r, []) :=
        ⟨used, hms ▸ List.subset_append_left used later, hused⟩
      have hmono : ∀ {y r'}, (∃ used, used ⊆ later ∧ (visit y).seen used = some (r', [])) →
          ∃ used, used ⊆ ms ∧ (visit y).seen used = some (r', []) := by
        rintro y r' ⟨used', hsub, hy⟩
        exact ⟨used', List.Subset.trans hsub hlater, hy⟩
      cases r with
      | none =>
          obtain ⟨finds, hfinds, hes⟩ := ih hgoOn
          exact ⟨none :: finds, .cons hhere (hfinds.imp fun _ _ => hmono), hes⟩
      | some e =>
          simp only [seen_bind, Option.bind_eq_some_iff] at hgoOn
          obtain ⟨⟨es', last⟩, hcollected, hret⟩ := hgoOn
          obtain ⟨finds, hfinds, hes⟩ := ih hcollected
          rw [seen_pure] at hret
          obtain ⟨rfl, -⟩ := Prod.mk.inj (Option.some.inj hret)
          refine ⟨some e :: finds, .cons hhere (hfinds.imp fun _ _ => hmono), ?_⟩
          rw [hes]
          rfl

/-- Every answer that the code can come to, if it sees memories in `P` only, is in
`Q`. -/
def Answers (P : σ → Prop) (Q : β → Prop) : Code σ β → Prop
  | .ret b => Q b
  | .access _ next => ∀ s, P s → (next s).Answers P Q

@[simp] theorem answers_pure {P : σ → Prop} {Q : β → Prop} {b : β} :
    (pure b : Code σ β).Answers P Q ↔ Q b := Iff.rfl

@[simp] theorem answers_read_bind {P : σ → Prop} {Q : γ → Prop} {f : σ → β} {k : β → Code σ γ} :
    (read f >>= k).Answers P Q ↔ ∀ s, P s → (k (f s)).Answers P Q := Iff.rfl

@[simp] theorem answers_ite {P : σ → Prop} {Q : β → Prop} {p : Prop} [Decidable p]
    {c₁ c₂ : Code σ β} :
    (if p then c₁ else c₂).Answers P Q ↔ if p then c₁.Answers P Q else c₂.Answers P Q := by
  split_ifs <;> rfl

theorem Answers.seen {P : σ → Prop} {Q : β → Prop} {c : Code σ β} (h : c.Answers P Q)
    {ms rest : List σ} {b : β} (hms : ∀ m ∈ ms, P m) (hseen : c.seen ms = some (b, rest)) :
    Q b := by
  induction c generalizing ms with
  | ret b' =>
      obtain ⟨rfl, -⟩ : b' = b ∧ ms = rest := by
        rw [← Prod.mk.injEq, ← Option.some.injEq, ← hseen]
        exact (seen_pure b' ms).symm
      exact h
  | access write next ih =>
      cases ms with
      | nil => cases hseen
      | cons m ms =>
          exact ih m (h m (hms m List.mem_cons_self))
            (fun m' hm' => hms m' (List.mem_cons_of_mem _ hm')) hseen

/-! ## How many accesses -/

/-- At most `n` accesses, whatever they find. -/
inductive AtMost : Nat → Code σ β → Prop
  | ret (n : Nat) (b : β) : AtMost n (.ret b)
  | access {n : Nat} {write : σ → σ} {next : σ → Code σ β} (h : ∀ s, AtMost n (next s)) :
      AtMost (n + 1) (.access write next)

theorem AtMost.pure (n : Nat) (b : β) : AtMost n (pure b : Code σ β) := .ret n b

theorem AtMost.read_bind {f : σ → β} {k : β → Code σ γ} (h : ∀ b, AtMost n (k b)) :
    AtMost (n + 1) (read f >>= k) :=
  .access fun s => h (f s)

theorem AtMost.mono {m : Nat} {c : Code σ β} (h : AtMost n c) (hle : n ≤ m) : AtMost m c := by
  induction h generalizing m with
  | ret n b => exact .ret m b
  | access _ ih =>
      cases m with
      | zero => exact absurd hle (by simp)
      | succ m => exact .access fun s => ih s (by omega)

theorem AtMost.bind {m : Nat} {c : Code σ β} {k : β → Code σ γ} (hc : AtMost n c)
    (hk : ∀ b, AtMost m (k b)) : AtMost (n + m) (c >>= k) := by
  induction hc with
  | ret n b => exact (hk b).mono (by omega)
  | @access n write next _ ih =>
      have hsum : n + 1 + m = n + m + 1 := by omega
      rw [hsum]
      exact .access ih

theorem AtMost.bind_pure {c : Code σ β} (hc : AtMost n c) (f : β → γ) :
    AtMost n (c >>= fun b => Pure.pure (f b)) :=
  hc.bind (m := 0) fun b => .pure 0 (f b)

/-- `AtMost.bind` for code whose answers are known to be in `Q`. -/
theorem AtMost.bind_answers {m : Nat} {Q : β → Prop} {c : Code σ β} {k : β → Code σ γ}
    (hc : AtMost n c) (hanswers : c.Answers (fun _ => True) Q) (hk : ∀ b, Q b → AtMost m (k b)) :
    AtMost (n + m) (c >>= k) := by
  induction hc with
  | ret n b => exact (hk b hanswers).mono (by omega)
  | @access n write next _ ih =>
      have hsum : n + 1 + m = n + m + 1 := by omega
      rw [hsum]
      exact .access fun s => ih s (hanswers s trivial)

/-- `AtMost.bind` with the sum turned round, which is what numerals unify with. -/
theorem AtMost.bind_add {m : Nat} {c : Code σ β} {k : β → Code σ γ} (hc : AtMost n c)
    (hk : ∀ b, AtMost m (k b)) : AtMost (m + n) (c >>= k) :=
  Nat.add_comm n m ▸ hc.bind hk

theorem AtMost.collect {visit : γ → Code σ (Option ε)} (hvisit : ∀ x, AtMost n (visit x))
    (more : Nat → Bool) (xs : List γ) :
    ∀ count, AtMost (xs.length * n) (collect visit more count xs) := by
  induction xs with
  | nil =>
      intro count
      exact .pure _ _
  | cons x xs ih =>
      intro count
      have hlength : (x :: xs).length * n = n + xs.length * n := by
        rw [List.length_cons, Nat.add_mul, Nat.one_mul, Nat.add_comm]
      rw [hlength, Code.collect]
      split
      · refine (hvisit x).bind fun r => ?_
        cases r with
        | none => exact ih count
        | some e => exact (ih (count + 1)).bind_pure (e :: ·)
      · exact .pure _ _

theorem AtMost.read (f : σ → β) : AtMost 1 (read f) :=
  .access fun s => .ret 0 (f s)

theorem AtMost.write (f : σ → σ) : AtMost 1 (write f) :=
  .access fun _ => .ret 0 ()

theorem AtMost.ite {p : Prop} [Decidable p] {c d : Code σ β} (hc : AtMost n c) (hd : AtMost n d) :
    AtMost n (if p then c else d) := by
  split
  · exact hc
  · exact hd

/-- What is left after an access. -/
theorem AtMost.next {write : σ → σ} {next : σ → Code σ β} (h : AtMost n (.access write next))
    (s : σ) : ∃ m, n = m + 1 ∧ AtMost m (next s) := by
  cases h with
  | access h => exact ⟨_, rfl, h s⟩

theorem AtMost.each {body : γ → Code σ Unit} (hbody : ∀ x, AtMost n (body x)) (xs : List γ) :
    AtMost (xs.length * n) (each body xs) := by
  induction xs with
  | nil => exact .pure _ _
  | cons x xs ih =>
      rw [List.length_cons, Nat.succ_mul, Nat.add_comm]
      exact (hbody x).bind fun _ => ih

theorem AtMost.first {test : γ → Code σ Bool} (htest : ∀ x, AtMost n (test x)) (xs : List γ) :
    AtMost (xs.length * n) (first test xs) := by
  induction xs with
  | nil => exact .pure _ _
  | cons x xs ih =>
      rw [List.length_cons, Nat.succ_mul, Nat.add_comm]
      exact (htest x).bind fun found => .ite (.pure _ _) ih

theorem AtMost.foldlM {body : ε → γ → Code σ ε} (hbody : ∀ e x, AtMost n (body e x)) (xs : List γ)
    (e : ε) : AtMost (xs.length * n) (xs.foldlM body e) := by
  induction xs generalizing e with
  | nil => exact .pure _ _
  | cons x xs ih =>
      rw [List.foldlM_cons, List.length_cons, Nat.succ_mul, Nat.add_comm]
      exact (hbody e x).bind ih

/-- Code that has made as many accesses as it can has its answer. -/
theorem AtMost.seen_isSome {c : Code σ β} (h : AtMost n c) {ms : List σ} (hms : n ≤ ms.length) :
    (c.seen ms).isSome := by
  induction h generalizing ms with
  | ret n b =>
      cases ms with
      | nil | cons => rfl
  | access _ ih =>
      cases ms with
      | nil => exact absurd hms (by simp)
      | cons m ms => exact ih m (Nat.le_of_succ_le_succ hms)

end Code

end MtRdma.Verified.AccessCode
