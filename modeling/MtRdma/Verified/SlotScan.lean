import Mathlib.Data.Fintype.Card
import Mathlib.Data.Fintype.BigOperators
import Mathlib.Data.List.FinRange
import Mathlib.Logic.Function.Basic
import Mathlib.Tactic.Abel
import Mathlib.Tactic.Push
import MtRdma.Verified.MachineInt

/-!
# Linear scans over a keyed array of slots

A fixed array of `n` slots carries one key per slot; a distinguished key
`empty` marks a hole.  Entries are found by a linear scan which, while it is
still looking for the key, also remembers the first hole it passed.

This module is generic in the key type and in `n`.  It supplies

* `lookup`, the plain first-match loop, and `scan`, the combined loop;
* `scan_eq_lookup`, which reduces the combined loop to two plain lookups;
* `Distinct`, the "no key occupies two slots" invariant, with one lemma for
  each way an array is rewritten (`set_hole`, `clear_slot`);
* `used`, the set of occupied slots, whose cardinality decides whether a hole
  is left.
-/

namespace MtRdma.Verified.SlotScan

variable {κ : Type} {n : Nat}

/-! ## Arrays without a repeated key -/

/-- No key other than `empty` occupies two slots. -/
def Distinct (empty : κ) (keys : Fin n → κ) : Prop :=
  ∀ i j, keys i = keys j → keys i ≠ empty → i = j

theorem Distinct.const (empty : κ) : Distinct empty (fun _ : Fin n => empty) := by
  intro i j _ hne
  exact absurd rfl hne

/-- Emptying any slot keeps the keys distinct. -/
theorem Distinct.clear_slot {empty : κ} {keys : Fin n → κ}
    (h : Distinct empty keys) (s : Fin n) :
    Distinct empty (Function.update keys s empty) := by
  intro i j hij hi
  by_cases his : i = s
  · rw [his, Function.update_self] at hi
    exact absurd rfl hi
  · by_cases hjs : j = s
    · rw [hjs, Function.update_self] at hij
      exact absurd hij hi
    · rw [Function.update_of_ne his] at hij hi
      rw [Function.update_of_ne hjs] at hij
      exact h i j hij hi

/-- Filling a hole adds its key to the keys present. -/
theorem exists_set_hole_iff {empty key new : κ} {keys : Fin n → κ} {s : Fin n}
    (hs : keys s = empty) (hkey : key ≠ empty) :
    (∃ i, Function.update keys s new i = key) ↔ key = new ∨ ∃ i, keys i = key := by
  constructor
  · rintro ⟨i, hi⟩
    by_cases his : i = s
    · rw [his, Function.update_self] at hi
      exact .inl hi.symm
    · rw [Function.update_of_ne his] at hi
      exact .inr ⟨i, hi⟩
  · rintro (rfl | ⟨i, hi⟩)
    · exact ⟨s, Function.update_self s key keys⟩
    · have his : i ≠ s := by
        rintro rfl
        exact hkey (hi.symm.trans hs)
      exact ⟨i, by rw [Function.update_of_ne his, hi]⟩

/-- Emptying a slot removes its key, and no other, from the keys present. -/
theorem Distinct.exists_clear_slot_iff {empty key : κ} {keys : Fin n → κ}
    (h : Distinct empty keys) (s : Fin n) (hkey : key ≠ empty) :
    (∃ i, Function.update keys s empty i = key) ↔ (∃ i, keys i = key) ∧ key ≠ keys s := by
  constructor
  · rintro ⟨i, hi⟩
    by_cases his : i = s
    · rw [his, Function.update_self] at hi
      exact absurd hi.symm hkey
    · rw [Function.update_of_ne his] at hi
      refine ⟨⟨i, hi⟩, ?_⟩
      intro hsame
      exact his (h i s (hi.trans hsame) (by rw [hi]; exact hkey))
  · rintro ⟨⟨i, hi⟩, hne⟩
    have his : i ≠ s := by
      rintro rfl
      exact hne hi.symm
    exact ⟨i, by rw [Function.update_of_ne his, hi]⟩

variable [DecidableEq κ]

/-! ## The two loops -/

/-- The first slot that carries `key`. -/
def lookup (keys : Fin n → κ) (key : κ) : Option (Fin n) :=
  (List.finRange n).find? fun i => decide (keys i = key)

/-- The combined loop over the remaining `slots`: stop at the first match;
otherwise record the current slot if it is the first hole. -/
def scanFrom (keys : Fin n → κ) (empty key : κ) :
    Option (Fin n) → List (Fin n) → Option (Fin n) × Option (Fin n)
  | hole, [] => (none, hole)
  | hole, i :: rest =>
      if keys i = key then (some i, hole)
      else if hole = none ∧ keys i = empty then
        scanFrom keys empty key (some i) rest
      else scanFrom keys empty key hole rest

/-- The combined loop over the whole array: the slot of `key` if there is one,
and the first hole passed on the way. -/
def scan (keys : Fin n → κ) (empty key : κ) : Option (Fin n) × Option (Fin n) :=
  scanFrom keys empty key none (List.finRange n)

theorem lookup_some {keys : Fin n → κ} {key : κ} {i : Fin n}
    (h : lookup keys key = some i) : keys i = key := by
  simpa using List.find?_some h

theorem lookup_eq_none_iff (keys : Fin n → κ) (key : κ) :
    lookup keys key = none ↔ ∀ i, keys i ≠ key := by
  simp [lookup, List.find?_eq_none]

theorem lookup_isSome_iff (keys : Fin n → κ) (key : κ) :
    (lookup keys key).isSome ↔ ∃ i, keys i = key := by
  rw [← Option.ne_none_iff_isSome, Ne, lookup_eq_none_iff]
  push Not
  rfl

/-- Two arrays that carry `key` in the same slots are indistinguishable to the
lookup of `key`. -/
theorem lookup_congr {keys keys' : Fin n → κ} {key : κ}
    (h : ∀ i, keys i = key ↔ keys' i = key) :
    lookup keys key = lookup keys' key := by
  unfold lookup
  congr 1
  funext i
  exact decide_eq_decide.mpr (h i)

/-- A key in the first slot is found there. -/
theorem lookup_first [NeZero n] {keys : Fin n → κ} {key : κ} (h : keys 0 = key) :
    lookup keys key = some 0 := by
  obtain ⟨m, rfl⟩ : ∃ m, n = m + 1 := Nat.exists_eq_succ_of_ne_zero (NeZero.ne n)
  unfold lookup
  rw [List.finRange_succ, List.find?_cons_of_pos]
  simpa using h

private theorem scanFrom_fst (keys : Fin n → κ) (empty key : κ) :
    ∀ (slots : List (Fin n)) (hole : Option (Fin n)),
      (scanFrom keys empty key hole slots).1 =
        slots.find? fun i => decide (keys i = key) := by
  intro slots
  induction slots with
  | nil => intro hole; rfl
  | cons i rest ih =>
      intro hole
      by_cases hkey : keys i = key
      · simp [scanFrom, hkey]
      · by_cases hhole : hole = none ∧ keys i = empty
        · rw [scanFrom, if_neg hkey, if_pos hhole, ih]
          simp [hkey]
        · rw [scanFrom, if_neg hkey, if_neg hhole, ih]
          simp [hkey]

private theorem scanFrom_snd_some (keys : Fin n → κ) (empty key : κ) (j : Fin n) :
    ∀ slots : List (Fin n),
      (scanFrom keys empty key (some j) slots).2 = some j := by
  intro slots
  induction slots with
  | nil => rfl
  | cons i rest ih =>
      by_cases hkey : keys i = key
      · simp [scanFrom, hkey]
      · simp [scanFrom, hkey, ih]

private theorem scanFrom_snd_none (keys : Fin n → κ) (empty key : κ) :
    ∀ slots : List (Fin n), (∀ i ∈ slots, keys i ≠ key) →
      (scanFrom keys empty key none slots).2 =
        slots.find? fun i => decide (keys i = empty) := by
  intro slots
  induction slots with
  | nil => intro _; rfl
  | cons i rest ih =>
      intro hne
      have hkey : keys i ≠ key := hne i (by simp)
      have hrest : ∀ j ∈ rest, keys j ≠ key := by
        intro j hj
        exact hne j (by simp [hj])
      by_cases hempty : keys i = empty
      · have hke : ¬empty = key := by rw [← hempty]; exact hkey
        simp [scanFrom, hempty, hke, scanFrom_snd_some]
      · simp [scanFrom, hkey, hempty, ih hrest]

/-- The combined loop finds exactly what the plain loop finds. -/
theorem scan_fst (keys : Fin n → κ) (empty key : κ) :
    (scan keys empty key).1 = lookup keys key :=
  scanFrom_fst keys empty key _ none

/-- When the key is absent the loop is never left early, so the hole it
reports is the first hole of the whole array. -/
theorem scan_eq_lookup {keys : Fin n → κ} {empty key : κ}
    (h : lookup keys key = none) :
    scan keys empty key = (none, lookup keys empty) := by
  refine Prod.ext ((scan_fst keys empty key).trans h) ?_
  exact scanFrom_snd_none keys empty key _
    fun i _ => (lookup_eq_none_iff keys key).mp h i

/-! ## Lookups in arrays without a repeated key -/

/-- In an array without repeated keys a lookup finds the slot of the key. -/
theorem Distinct.lookup_eq {empty : κ} {keys : Fin n → κ}
    (h : Distinct empty keys) {i : Fin n} (hne : keys i ≠ empty) :
    lookup keys (keys i) = some i := by
  cases hl : lookup keys (keys i) with
  | none => exact absurd rfl ((lookup_eq_none_iff keys (keys i)).mp hl i)
  | some j =>
      have hj : keys j = keys i := lookup_some hl
      rw [h j i hj (by rw [hj]; exact hne)]

/-- Writing an absent key over any slot keeps the keys distinct. -/
theorem Distinct.set_hole {empty key : κ} {keys : Fin n → κ}
    (h : Distinct empty keys) (habs : lookup keys key = none) (s : Fin n) :
    Distinct empty (Function.update keys s key) := by
  have hne := (lookup_eq_none_iff keys key).mp habs
  intro i j hij hi
  by_cases his : i = s
  · by_cases hjs : j = s
    · rw [his, hjs]
    · rw [his, Function.update_self, Function.update_of_ne hjs] at hij
      exact absurd hij.symm (hne j)
  · by_cases hjs : j = s
    · rw [hjs, Function.update_self, Function.update_of_ne his] at hij
      exact absurd hij (hne i)
    · rw [Function.update_of_ne his] at hij hi
      rw [Function.update_of_ne hjs] at hij
      exact h i j hij hi

/-- Overwriting a slot is invisible to keys that are neither the old nor the
new content of that slot. -/
theorem lookup_update_ne {keys : Fin n → κ} {s : Fin n} {new key : κ}
    (hold : keys s ≠ key) (hnew : new ≠ key) :
    lookup (Function.update keys s new) key = lookup keys key := by
  apply lookup_congr
  intro i
  by_cases his : i = s
  · rw [his, Function.update_self]
    exact ⟨fun h => absurd h hnew, fun h => absurd h hold⟩
  · rw [Function.update_of_ne his]

/-- A freshly written key is found in the slot it was written to. -/
theorem lookup_set_hole {keys : Fin n → κ} {key : κ}
    (habs : lookup keys key = none) (s : Fin n) :
    lookup (Function.update keys s key) key = some s := by
  have hne := (lookup_eq_none_iff keys key).mp habs
  have hsome : (lookup (Function.update keys s key) key).isSome :=
    (lookup_isSome_iff _ _).mpr ⟨s, Function.update_self s key keys⟩
  obtain ⟨i, hi⟩ := Option.isSome_iff_exists.mp hsome
  have hkey := lookup_some hi
  by_cases his : i = s
  · rw [hi, his]
  · rw [Function.update_of_ne his] at hkey
    exact absurd hkey (hne i)

/-- After its slot has been emptied a key is no longer found. -/
theorem Distinct.lookup_clear_slot {empty : κ} {keys : Fin n → κ}
    (h : Distinct empty keys) {s : Fin n} (hs : keys s ≠ empty) :
    lookup (Function.update keys s empty) (keys s) = none := by
  rw [lookup_eq_none_iff]
  intro i
  by_cases his : i = s
  · rw [his, Function.update_self]
    exact hs.symm
  · rw [Function.update_of_ne his]
    intro heq
    exact his (h i s heq (by rw [heq]; exact hs))

/-! ## Occupied slots -/

/-- The occupied slots. -/
def used (empty : κ) (keys : Fin n → κ) : Finset (Fin n) :=
  Finset.univ.filter fun i => keys i ≠ empty

@[simp] theorem mem_used {empty : κ} {keys : Fin n → κ} {i : Fin n} :
    i ∈ used empty keys ↔ keys i ≠ empty := by
  simp [used]

@[simp] theorem used_const (empty : κ) :
    used empty (fun _ : Fin n => empty) = ∅ := by
  ext i
  simp

theorem card_used_le (empty : κ) (keys : Fin n → κ) :
    (used empty keys).card ≤ n := by
  simpa using Finset.card_le_univ (used empty keys)

/-- As many keys are present as slots are occupied. -/
theorem Distinct.card_image_used {empty : κ} {keys : Fin n → κ} (h : Distinct empty keys) :
    ((used empty keys).image keys).card = (used empty keys).card := by
  apply Finset.card_image_of_injOn
  intro i hi j _ hij
  exact h i j hij (mem_used.mp hi)

/-- A hole is left exactly when not every slot is occupied. -/
theorem exists_hole_iff (empty : κ) (keys : Fin n → κ) :
    (lookup keys empty).isSome ↔ (used empty keys).card < n := by
  rw [lookup_isSome_iff]
  constructor
  · rintro ⟨i, hi⟩
    have hlt := Finset.card_lt_univ_of_notMem (s := used empty keys) (x := i)
      (by simp [hi])
    simpa using hlt
  · intro hlt
    by_contra hno
    push Not at hno
    have hall : used empty keys = Finset.univ := by
      ext i
      simp [hno i]
    rw [hall, Finset.card_univ, Fintype.card_fin] at hlt
    exact lt_irrefl n hlt

/-- Filling a hole occupies one more slot. -/
theorem card_used_set_hole {empty key : κ} {keys : Fin n → κ} {s : Fin n}
    (hs : keys s = empty) (hkey : key ≠ empty) :
    (used empty (Function.update keys s key)).card = (used empty keys).card + 1 := by
  have hset : used empty (Function.update keys s key) =
      insert s (used empty keys) := by
    ext i
    by_cases his : i = s
    · simp [his, hkey]
    · simp [his]
  rw [hset, Finset.card_insert_of_notMem (by simp [hs])]

/-- Emptying an occupied slot frees exactly one slot. -/
theorem card_used_clear_slot {empty : κ} {keys : Fin n → κ} {s : Fin n}
    (hs : keys s ≠ empty) :
    (used empty (Function.update keys s empty)).card + 1 = (used empty keys).card := by
  have hset : used empty (Function.update keys s empty) =
      (used empty keys).erase s := by
    ext i
    by_cases his : i = s
    · simp [his]
    · simp [his]
  have hmem : s ∈ used empty keys := by simp [hs]
  rw [hset, Finset.card_erase_add_one hmem]

/-- A word that counts the occupied slots counts the filled hole, if it can
count all slots. -/
theorem count_set_hole {empty key : κ} {keys : Fin n → κ} {s : Fin n} {count : UInt32}
    (hcount : count.toNat = (used empty keys).card) (hn : n < 2 ^ 32)
    (hs : keys s = empty) (hkey : key ≠ empty) :
    (count + 1).toNat = (used empty (Function.update keys s key)).card := by
  have hcard := card_used_set_hole hs hkey
  have hle := card_used_le empty (Function.update keys s key)
  rw [MachineInt.toNat_add_one32 (by omega), hcount, hcard]

/-- A word that counts the occupied slots, after one is emptied. -/
theorem count_clear_slot {empty : κ} {keys : Fin n → κ} {s : Fin n} {count : UInt32}
    (hcount : count.toNat = (used empty keys).card) (hs : keys s ≠ empty) :
    (count - 1).toNat = (used empty (Function.update keys s empty)).card :=
  MachineInt.toNat_sub_one (hcount.trans (card_used_clear_slot hs).symm)

/-! ## Sums over the slots -/

/-- Replacing the content of one slot changes a sum over all slots by the
difference of the two contents. -/
theorem sum_update {α G : Type} [AddCommGroup G] (f : α → G)
    (vals : Fin n → α) (s : Fin n) (v : α) :
    ∑ i, f (Function.update vals s v i) =
      (∑ i, f (vals i)) - f (vals s) + f v := by
  have hcomp : (fun i => f (Function.update vals s v i)) =
      Function.update (fun i => f (vals i)) s (f v) := by
    funext i
    by_cases his : i = s
    · simp [his]
    · simp [Function.update_of_ne his]
  rw [hcomp, Finset.sum_update_of_mem (Finset.mem_univ s)]
  have hsplit := Finset.sum_sdiff (f := fun i => f (vals i))
    (Finset.subset_univ ({s} : Finset (Fin n)))
  rw [Finset.sum_singleton] at hsplit
  rw [← hsplit]
  abel

/-! ## Loops that visit every slot once -/

private theorem foldl_view_of_ne {σ β : Type} {f : σ → Fin n → σ} {view : σ → β} {i : Fin n}
    (hframe : ∀ s j, j ≠ i → view (f s j) = view s) :
    ∀ (slots : List (Fin n)) (s : σ), i ∉ slots → view (slots.foldl f s) = view s := by
  intro slots
  induction slots with
  | nil => intro s _; rfl
  | cons j rest ih =>
      intro s hmem
      rw [List.mem_cons, not_or] at hmem
      rw [List.foldl_cons, ih (f s j) hmem.2, hframe s j (Ne.symm hmem.1)]

/-- If the iteration for a slot is the only one that touches what `view`
shows, and depends on nothing else, then the whole loop shows what that one
iteration does. -/
theorem foldl_finRange_view {σ β : Type} {f : σ → Fin n → σ} {view : σ → β} {i : Fin n}
    {g : β → β} (hframe : ∀ s j, j ≠ i → view (f s j) = view s)
    (hlocal : ∀ s, view (f s i) = g (view s)) (s : σ) :
    view ((List.finRange n).foldl f s) = g (view s) := by
  obtain ⟨before, after, hsplit⟩ := List.append_of_mem (List.mem_finRange i)
  have hnodup : (before ++ i :: after).Nodup := hsplit ▸ List.nodup_finRange n
  have hbefore : i ∉ before := by
    intro hmem
    exact (List.nodup_append.mp hnodup).2.2 i hmem i (by simp) rfl
  have hafter : i ∉ after := (List.nodup_cons.mp (List.nodup_append.mp hnodup).2.1).1
  rw [hsplit, List.foldl_append, List.foldl_cons, foldl_view_of_ne hframe after _ hafter,
    hlocal, foldl_view_of_ne hframe before s hbefore]

/-- Writing every slot leaves nothing of what was there. -/
theorem foldl_update_finRange {β : Type} (values cells : Fin n → β) :
    (List.finRange n).foldl (fun cells i => Function.update cells i (values i)) cells = values := by
  funext i
  refine @foldl_finRange_view n _ _ _ (fun cells : Fin n → β => cells i) i (fun _ => values i)
    ?_ ?_ cells
  · intro cells j hj
    exact Function.update_of_ne hj.symm _ _
  · intro cells
    exact Function.update_self _ _ _

end MtRdma.Verified.SlotScan
