import Mathlib.Logic.Function.Basic
import Mathlib.Data.Int.Order.Basic

/-!
# Descriptors and who holds them

A table of descriptors says for every number what it refers to.  A holder keeps
entries, each with a number and the object it takes the number to refer to; a
negative number means that nothing is held.  The entries are right about the
table if every number they hold is open, refers to the object of its entry, and
is held once.  Numbers are used again as soon as they are free, so an entry that
closes a number it does not hold can take it away from another entry.
-/

namespace MtRdma.Verified.Descriptors

/-- What every open descriptor refers to. -/
abbrev Table (ω : Type) := Int → Option ω

/-- The number that the next call to open gets. -/
structure LowestFree {ω : Type} (t : Table ω) (fd : Int) : Prop where
  nonneg : 0 ≤ fd
  free : t fd = none
  lowest : ∀ k, 0 ≤ k → k < fd → t k ≠ none

section Holds

variable {ι ε ω : Type} (num : ε → Int) (obj : ε → ω)

/-- The entries are right about the table. -/
structure Holds (entries : ι → ε) (t : Table ω) : Prop where
  opened : ∀ i, 0 ≤ num (entries i) → t (num (entries i)) = some (obj (entries i))
  distinct : ∀ i j, 0 ≤ num (entries i) → num (entries i) = num (entries j) → i = j

variable {num obj} {entries : ι → ε} {t : Table ω}

/-- Nothing is held. -/
theorem holds_of_neg (h : ∀ i, num (entries i) < 0) : Holds num obj entries t where
  opened i hi := absurd (h i) (by omega)
  distinct i _ hi := absurd (h i) (by omega)

namespace Holds

/-- The table changes at a number that is not held. -/
theorem elsewhere (h : Holds num obj entries t) {fd : Int}
    (hfd : ∀ i, 0 ≤ num (entries i) → num (entries i) ≠ fd) (x : Option ω) :
    Holds num obj entries (Function.update t fd x) where
  opened i hi := by
    rw [Function.update_of_ne (hfd i hi)]
    exact h.opened i hi
  distinct := h.distinct

/-- A number that is free, or refers to something else, is not held. -/
theorem num_ne (h : Holds num obj entries t) {fd : Int} {x : Option ω} (hfd : t fd = x)
    (hx : ∀ i, x ≠ some (obj (entries i))) : ∀ i, 0 ≤ num (entries i) → num (entries i) ≠ fd := by
  intro i hi heq
  refine hx i ?_
  rw [← hfd, ← heq]
  exact h.opened i hi

variable [DecidableEq ι]

/-- An entry is replaced by one that holds nothing. -/
theorem clear (h : Holds num obj entries t) (i : ι) {e : ε} (he : num e < 0) :
    Holds num obj (Function.update entries i e) t := by
  have hother : ∀ j, 0 ≤ num (Function.update entries i e j) →
      Function.update entries i e j = entries j := by
    intro j hj
    refine Function.update_of_ne (fun hji => ?_) e entries
    rw [hji, Function.update_self] at hj
    omega
  constructor
  · intro j hj
    have hsame := hother j hj
    rw [hsame] at hj ⊢
    exact h.opened j hj
  · intro j k hj hjk
    have hsame := hother j hj
    have hsame' := hother k (hjk ▸ hj)
    rw [hsame] at hj hjk
    rw [hsame'] at hjk
    exact h.distinct j k hj hjk

/-- An entry gives up what it holds. -/
theorem close (h : Holds num obj entries t) (i : ι) {e : ε} (he : num e < 0) :
    Holds num obj (Function.update entries i e)
      (Function.update t (num (entries i)) none) := by
  refine (h.clear i he).elsewhere (fun j hj heq => ?_) none
  by_cases hji : j = i
  · rw [hji, Function.update_self] at hj
    omega
  · rw [Function.update_of_ne hji] at hj heq
    exact hji (h.distinct j i hj heq)

/-- A free number is opened for an entry. -/
theorem take (h : Holds num obj entries t) (i : ι) {e : ε} (hfree : t (num e) = none) :
    Holds num obj (Function.update entries i e)
      (Function.update t (num e) (some (obj e))) := by
  have hne : ∀ j, 0 ≤ num (entries j) → num (entries j) ≠ num e :=
    h.num_ne hfree fun _ hsome => nomatch hsome
  constructor
  · intro j hj
    by_cases hji : j = i
    · rw [hji, Function.update_self, Function.update_self]
    · rw [Function.update_of_ne hji] at hj ⊢
      rw [Function.update_of_ne (hne j hj)]
      exact h.opened j hj
  · intro j k hj hjk
    by_cases hji : j = i
    · by_cases hki : k = i
      · rw [hji, hki]
      · rw [hji, Function.update_self] at hj hjk
        rw [Function.update_of_ne hki] at hjk
        exact absurd hjk.symm (hne k (hjk ▸ hj))
    · rw [Function.update_of_ne hji] at hj hjk
      by_cases hki : k = i
      · rw [hki, Function.update_self] at hjk
        exact absurd hjk (hne j hj)
      · rw [Function.update_of_ne hki] at hjk
        exact h.distinct j k hj hjk

end Holds

end Holds

end MtRdma.Verified.Descriptors
