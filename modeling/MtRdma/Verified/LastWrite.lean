import Mathlib.Data.List.Basic

/-!
# The last write wins

A value that knows the key it is stored under, a store that keeps one value for
each key, and a sequence of writes.  What is read afterwards is the last value
that was written under the key, or what was there before.
-/

namespace MtRdma.Verified.LastWrite

variable {S K V : Type} [DecidableEq K]

/-- The last value under `k`. -/
def last (key : V → K) (k : K) (vs : List V) : Option V :=
  vs.reverse.find? fun v => key v = k

theorem last_cons (key : V → K) (k : K) (v : V) (vs : List V) :
    last key k (v :: vs) = (last key k vs).or (if key v = k then some v else none) := by
  unfold last
  rw [List.reverse_cons, List.find?_append]
  by_cases h : key v = k
  · simp [h]
  · simp [h]

/-- Nothing was written exactly if nothing is found under any key. -/
theorem forall_last_eq_none_iff {key : V → K} {vs : List V} :
    (∀ k, last key k vs = none) ↔ vs = [] := by
  constructor
  · intro h
    rw [List.eq_nil_iff_forall_not_mem]
    intro v hv
    have hnone := List.find?_eq_none.mp (h (key v)) v (List.mem_reverse.mpr hv)
    simp at hnone
  · rintro rfl k
    rfl

/-- Values computed from their keys: the last one under `k` is the one that was
computed from `k`. -/
theorem last_filterMap {key : V → K} {g : K → Option V} (hg : ∀ k v, g k = some v → key v = k)
    (k : K) (ks : List K) :
    last key k (ks.filterMap g) = if k ∈ ks then g k else none := by
  induction ks with
  | nil => rfl
  | cons k' ks ih =>
      rw [List.filterMap_cons]
      cases hk' : g k' with
      | none =>
          dsimp only
          rw [ih]
          by_cases heq : k = k'
          · rw [heq, hk']
            simp
          · simp [heq]
      | some v =>
          dsimp only
          rw [last_cons, ih, hg k' v hk']
          by_cases heq : k' = k
          · subst heq
            by_cases hmem : k' ∈ ks
            · simp [hmem, hk']
            · simp [hmem, hk']
          · simp [heq, Ne.symm heq]

/-- Reading after one write. -/
structure Keeps (read : K → S → V) (store : S → V → S) (key : V → K) : Prop where
  read_store : ∀ s v k, read k (store s v) = if key v = k then v else read k s

/-- **The last write wins.** -/
theorem read_foldl {read : K → S → V} {store : S → V → S} {key : V → K}
    (h : Keeps read store key) (k : K) (vs : List V) :
    ∀ s, read k (vs.foldl store s) = (last key k vs).getD (read k s) := by
  induction vs with
  | nil => intro s; rfl
  | cons v vs ih =>
      intro s
      rw [List.foldl_cons, ih, last_cons, h.read_store]
      cases last key k vs with
      | none =>
          by_cases hv : key v = k
          · simp [hv]
          · simp [hv]
      | some w => rfl

/-- Two results that agree whatever was there before are the same. -/
theorem getD_ext {r : S → V} (hr : ∀ v, ∃ s, r s ≠ v) {a b : Option V} :
    (∀ s, a.getD (r s) = b.getD (r s)) ↔ a = b := by
  constructor
  · intro h
    cases a with
    | none =>
        cases b with
        | none => rfl
        | some v =>
            obtain ⟨s, hs⟩ := hr v
            exact absurd (h s) hs
    | some v =>
        obtain ⟨s, hs⟩ := hr v
        cases b with
        | none => exact absurd (h s).symm hs
        | some w => exact congrArg some (h s)
  · intro h s
    rw [h]

end MtRdma.Verified.LastWrite
