import Mathlib.Data.List.Nodup

/-!
# Write buffers

A buffer holds updates of a keyed store that are written out later.  A second
update of a key takes the place of the first one, so the buffer keeps the
order in which its keys came in.

Writing such a buffer out is the same as having made every update at once, as
far as a `view` of the store is concerned, if a write is absorbed by a later
one of the same key, and writes of different keys can be exchanged once the
store has decided about one of them (`Coalesces`).  A store of bounded size
decides about a key when it gives it a place or turns it away.
-/

namespace MtRdma.Verified.WriteBuffer

variable {κ ν σ τ : Type}

/-- Write the updates out, oldest key first. -/
def drain (write : κ → ν → σ → σ) (buffer : List (κ × ν)) (s : σ) : σ :=
  buffer.foldl (fun s e => write e.1 e.2 s) s

/-- A property that every write of the buffer keeps holds after all of them. -/
theorem drain_invariant {write : κ → ν → σ → σ} {P : σ → Prop} {buffer : List (κ × ν)}
    (hwrite : ∀ e ∈ buffer, ∀ s, P s → P (write e.1 e.2 s)) {s : σ} (h : P s) :
    P (drain write buffer s) := by
  induction buffer generalizing s with
  | nil => exact h
  | cons e rest ih =>
      refine ih (fun e' he' => hwrite e' (List.mem_cons_of_mem e he')) ?_
      exact hwrite e List.mem_cons_self s h

/-- A buffer with one update per key. -/
def Merged (buffer : List (κ × ν)) : Prop := (buffer.map Prod.fst).Nodup

section Put

variable [DecidableEq κ]

/-- Put an update in the place of an earlier one of its key, or at the end. -/
def put (k : κ) (v : ν) : List (κ × ν) → List (κ × ν)
  | [] => [(k, v)]
  | e :: rest => if e.1 = k then (k, v) :: rest else e :: put k v rest

theorem keys_put (k : κ) (v : ν) (buffer : List (κ × ν)) :
    (put k v buffer).map Prod.fst =
      if k ∈ buffer.map Prod.fst then buffer.map Prod.fst else buffer.map Prod.fst ++ [k] := by
  induction buffer with
  | nil => rfl
  | cons e rest ih =>
      unfold put
      by_cases hk : e.1 = k
      · simp [hk]
      · have hk' : k ≠ e.1 := Ne.symm hk
        simp only [if_neg hk, List.map_cons, ih, List.mem_cons, hk', false_or]
        split <;> rfl

theorem Merged.put {buffer : List (κ × ν)} (h : Merged buffer) (k : κ) (v : ν) :
    Merged (put k v buffer) := by
  unfold Merged
  rw [keys_put]
  split
  · exact h
  · rename_i hk
    rw [List.nodup_append]
    refine ⟨h, List.nodup_singleton k, ?_⟩
    intro a ha b hb hab
    rw [List.mem_singleton] at hb
    exact hk (hb ▸ hab ▸ ha)

theorem mem_put_self (k : κ) (v : ν) (buffer : List (κ × ν)) : (k, v) ∈ put k v buffer := by
  induction buffer with
  | nil => exact List.mem_singleton_self _
  | cons e rest ih =>
      unfold put
      split
      · exact List.mem_cons_self
      · exact List.mem_cons_of_mem _ ih

/-- The updates of other keys stay. -/
theorem mem_put_of_ne {k q : κ} {v u : ν} {buffer : List (κ × ν)} (hne : q ≠ k) :
    (q, u) ∈ put k v buffer ↔ (q, u) ∈ buffer := by
  induction buffer with
  | nil => simp [put, hne]
  | cons e rest ih =>
      unfold put
      split
      · rename_i hk
        have hqe : (q, u) ≠ e := fun heq => hne (by rw [← hk, ← heq])
        simp [hne, hqe]
      · rw [List.mem_cons, List.mem_cons, ih]

end Put

/-! ## Stores that a buffer may stand in front of -/

/-- The laws of a store, seen through `view`; `Settled k s` says that the store
has decided about the key. -/
structure Coalesces (write : κ → ν → σ → σ) (view : σ → τ) (Settled : κ → σ → Prop) : Prop where
  congr : ∀ {k v s s'}, view s = view s' → view (write k v s) = view (write k v s')
  settled_self : ∀ {k v s}, Settled k (write k v s)
  settled_keep : ∀ {k q u s}, Settled k s → Settled k (write q u s)
  absorb : ∀ {k v v' s}, view (write k v' (write k v s)) = view (write k v' s)
  swap : ∀ {k q v u s}, k ≠ q → Settled k s →
    view (write k v (write q u s)) = view (write q u (write k v s))

namespace Coalesces

variable {write : κ → ν → σ → σ} {view : σ → τ} {Settled : κ → σ → Prop}

theorem drain_congr (h : Coalesces write view Settled) {buffer : List (κ × ν)} {s s' : σ}
    (hview : view s = view s') : view (drain write buffer s) = view (drain write buffer s') := by
  induction buffer generalizing s s' with
  | nil => exact hview
  | cons e rest ih => exact ih (h.congr hview)

/-- A write of a settled key may be made before the buffer is written out. -/
theorem write_drain (h : Coalesces write view Settled) {buffer : List (κ × ν)} {k : κ} {v : ν}
    {s : σ} (hk : k ∉ buffer.map Prod.fst) (hsettled : Settled k s) :
    view (write k v (drain write buffer s)) = view (drain write buffer (write k v s)) := by
  induction buffer generalizing s with
  | nil => rfl
  | cons e rest ih =>
      rw [List.map_cons, List.mem_cons, not_or] at hk
      calc view (write k v (drain write rest (write e.1 e.2 s)))
          = view (drain write rest (write k v (write e.1 e.2 s))) :=
            ih hk.2 (h.settled_keep hsettled)
        _ = view (drain write rest (write e.1 e.2 (write k v s))) :=
            h.drain_congr (h.swap hk.1 hsettled)

/-- **Putting an update into the buffer is making it after the buffer was
written out.** -/
theorem drain_put [DecidableEq κ] (h : Coalesces write view Settled) {buffer : List (κ × ν)}
    (hmerged : Merged buffer) (k : κ) (v : ν) (s : σ) :
    view (drain write (put k v buffer) s) = view (write k v (drain write buffer s)) := by
  induction buffer generalizing s with
  | nil => rfl
  | cons e rest ih =>
      obtain ⟨hnot, hrest⟩ := List.nodup_cons.mp hmerged
      unfold put
      by_cases hk : e.1 = k
      · subst hk
        rw [if_pos rfl]
        calc view (drain write rest (write e.1 v s))
            = view (drain write rest (write e.1 v (write e.1 e.2 s))) :=
              h.drain_congr h.absorb.symm
          _ = view (write e.1 v (drain write rest (write e.1 e.2 s))) :=
              (h.write_drain hnot h.settled_self).symm
      · rw [if_neg hk]
        exact ih hrest (write e.1 e.2 s)

end Coalesces

end MtRdma.Verified.WriteBuffer
