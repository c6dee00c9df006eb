import Mathlib.Data.List.Nodup

/-!
# Walking over the keys of a map

A map that can only be enumerated by asking for the key after a given one is
a list of keys without repetition.  A caller walks over it by handing back
the key it was given last, in whatever form it remembers keys: `resume k` is
the argument of the next question after `k`, and `none` asks for the first
key.

A walk that remembers its keys reads a prefix of the list (`walk_start`).  A
key that is remembered as `none` sends the walk back to the start
(`walk_add`).
-/

namespace MtRdma.Verified.KeyWalk

variable {κ : Type} [DecidableEq κ]

/-- The key that follows `k`. -/
def after (k : κ) : List κ → Option κ
  | [] => none
  | x :: xs => if x = k then xs.head? else after k xs

/-- The key that follows, or the first one. -/
def next (keys : List κ) : Option κ → Option κ
  | none => keys.head?
  | some k => after k keys

/-- The keys seen by at most `n` questions, the first of them `cursor`. -/
def walk (keys : List κ) (resume : κ → Option κ) : Nat → Option κ → List κ
  | 0, _ => []
  | n + 1, cursor =>
      match next keys cursor with
      | none => []
      | some k => k :: walk keys resume n (resume k)

theorem after_append_cons {k : κ} {before : List κ} (rest : List κ) (hk : k ∉ before) :
    after k (before ++ k :: rest) = rest.head? := by
  induction before with
  | nil => exact if_pos rfl
  | cons x xs ih =>
      have hx : x ≠ k := by
        intro heq
        exact hk (heq ▸ List.mem_cons_self)
      have hxs : k ∉ xs := fun hmem => hk (List.mem_cons_of_mem x hmem)
      rw [List.cons_append, after, if_neg hx]
      exact ih hxs

variable {keys : List κ} {resume : κ → Option κ}

theorem mem_of_after {k x : κ} (h : after k keys = some x) : x ∈ keys := by
  induction keys with
  | nil => cases h
  | cons y ys ih =>
      rw [after] at h
      split at h
      · exact List.mem_cons_of_mem y (List.mem_of_head? h)
      · exact List.mem_cons_of_mem y (ih h)

/-- Every answer is a key. -/
theorem mem_of_next {cursor : Option κ} {x : κ} (h : next keys cursor = some x) : x ∈ keys := by
  cases cursor with
  | none => exact List.mem_of_head? h
  | some k => exact mem_of_after h

theorem walk_succ_of_next {cursor : Option κ} {k : κ} (n : Nat) (h : next keys cursor = some k) :
    walk keys resume (n + 1) cursor = k :: walk keys resume n (resume k) := by
  rw [walk, h]

theorem walk_of_next_none {cursor : Option κ} (n : Nat) (h : next keys cursor = none) :
    walk keys resume n cursor = [] := by
  cases n with
  | zero => rfl
  | succ n => rw [walk, h]

/-- From a key on, the walk reads what follows it, as long as it remembers the
keys it passes.  The last key it reads need not be remembered. -/
theorem walk_from {k : κ} {before rest : List κ} (n : Nat) (hnodup : (before ++ k :: rest).Nodup)
    (hresume : ∀ x ∈ rest.take (n - 1), resume x = some x) :
    walk (before ++ k :: rest) resume n (some k) = rest.take n := by
  induction n generalizing before k rest with
  | zero => rfl
  | succ n ih =>
      have hk : k ∉ before := by
        intro hmem
        exact (List.nodup_append.mp hnodup).2.2 k hmem k List.mem_cons_self rfl
      have hnext : next (before ++ k :: rest) (some k) = rest.head? := after_append_cons rest hk
      cases rest with
      | nil => exact walk_of_next_none (n + 1) hnext
      | cons x rest =>
          rw [walk_succ_of_next n hnext, List.take_succ_cons]
          cases n with
          | zero => rfl
          | succ n =>
              -- one key further, with `k` among the keys passed
              have hsplit : before ++ k :: x :: rest = (before ++ [k]) ++ x :: rest := by
                rw [List.append_assoc, List.singleton_append]
              rw [hresume x List.mem_cons_self]
              rw [hsplit] at hnodup ⊢
              rw [ih hnodup fun y hy => hresume y (List.mem_cons_of_mem x hy)]

/-- A walk from the start that remembers its keys reads the first `n` of them. -/
theorem walk_start (n : Nat) (hnodup : keys.Nodup)
    (hresume : ∀ x ∈ keys.take (n - 1), resume x = some x) :
    walk keys resume n none = keys.take n := by
  cases n with
  | zero => rfl
  | succ n =>
      cases keys with
      | nil => rfl
      | cons x rest =>
          rw [walk_succ_of_next n rfl, List.take_succ_cons]
          cases n with
          | zero => rfl
          | succ n =>
              rw [hresume x List.mem_cons_self]
              congr 1
              show walk ([] ++ x :: rest) resume (n + 1) (some x) = rest.take (n + 1)
              exact walk_from (n + 1) hnodup fun y hy => hresume y (List.mem_cons_of_mem x hy)

/-- A walk goes on from the last key it has read. -/
theorem walk_add {cursor : Option κ} {seen : List κ} {k : κ} (n : Nat)
    (h : walk keys resume (seen.length + 1) cursor = seen ++ [k]) :
    walk keys resume (seen.length + 1 + n) cursor =
      seen ++ k :: walk keys resume n (resume k) := by
  induction seen generalizing cursor with
  | nil =>
      cases hnext : next keys cursor with
      | none =>
          rw [walk_of_next_none _ hnext] at h
          cases h
      | some x =>
          rw [walk_succ_of_next _ hnext] at h
          obtain ⟨rfl, -⟩ := List.cons.inj h
          rw [List.length_nil, show 0 + 1 + n = n + 1 by omega, walk_succ_of_next n hnext]
          rfl
  | cons y seen ih =>
      cases hnext : next keys cursor with
      | none =>
          rw [walk_of_next_none _ hnext] at h
          cases h
      | some x =>
          rw [walk_succ_of_next _ hnext] at h
          obtain ⟨rfl, hrest⟩ := List.cons.inj h
          rw [List.length_cons, show seen.length + 1 + 1 + n = seen.length + 1 + n + 1 by omega,
            walk_succ_of_next _ hnext, ih hrest]
          rfl

end MtRdma.Verified.KeyWalk
