import Mathlib.Data.Finset.Card
import Mathlib.Data.Finset.Image
import Mathlib.Data.Fintype.Card
import MtRdma.Verified.SlotScan

/-!
# Finite maps of bounded size

The abstract object behind a slot array: a partial function with at most
`cap` keys.  `BoundedMap.put` is only available with a proof that there is
room for the key, so a map with too many keys cannot be built.

The second half of the module reads a slot array as such a map
(`ofSlots`) and says what the array rewrites of `SlotScan` do to it.
-/

namespace MtRdma.Verified

/-- A partial function with at most `cap` keys. -/
structure BoundedMap (κ ν : Type) (cap : Nat) where
  /-- The value stored under a key. -/
  get : κ → Option ν
  /-- The keys that have a value. -/
  keys : Finset κ
  mem_keys : ∀ k, k ∈ keys ↔ (get k).isSome
  card_keys : keys.card ≤ cap

namespace BoundedMap

variable {κ ν : Type} {cap : Nat}

/-- A bounded map is determined by the values it returns. -/
@[ext] theorem ext {m m' : BoundedMap κ ν cap} (h : ∀ k, m.get k = m'.get k) :
    m = m' := by
  obtain ⟨get, keys, hkeys, hcard⟩ := m
  obtain ⟨get', keys', hkeys', hcard'⟩ := m'
  obtain rfl : get = get' := funext h
  obtain rfl : keys = keys' := by
    ext k
    rw [hkeys, hkeys']
  rfl

/-- The map without keys. -/
def empty : BoundedMap κ ν cap where
  get := fun _ => none
  keys := ∅
  mem_keys := by simp
  card_keys := by simp

variable [DecidableEq κ]

/-- `k` can be stored: it is a key already, or a key may still be added. -/
def Room (m : BoundedMap κ ν cap) (k : κ) : Prop :=
  k ∈ m.keys ∨ m.keys.card < cap

instance (m : BoundedMap κ ν cap) (k : κ) : Decidable (m.Room k) :=
  inferInstanceAs (Decidable (_ ∨ _))

/-- Store `v` under `k`. -/
def put (m : BoundedMap κ ν cap) (k : κ) (v : ν) (h : m.Room k) :
    BoundedMap κ ν cap where
  get := Function.update m.get k (some v)
  keys := insert k m.keys
  mem_keys := by
    intro k'
    by_cases hk : k' = k
    · simp [hk]
    · simp [hk, m.mem_keys]
  card_keys := by
    rcases h with hmem | hlt
    · rw [Finset.insert_eq_of_mem hmem]
      exact m.card_keys
    · exact Nat.le_trans (Finset.card_insert_le k m.keys) hlt

/-- Remove the key `k`. -/
def erase (m : BoundedMap κ ν cap) (k : κ) : BoundedMap κ ν cap where
  get := Function.update m.get k none
  keys := m.keys.erase k
  mem_keys := by
    intro k'
    by_cases hk : k' = k
    · simp [hk]
    · simp [hk, m.mem_keys]
  card_keys := Nat.le_trans Finset.card_erase_le m.card_keys

@[simp] theorem get_put_self (m : BoundedMap κ ν cap) (k : κ) (v : ν) (h : m.Room k) :
    (m.put k v h).get k = some v := by
  simp [put]

theorem get_put_ne (m : BoundedMap κ ν cap) {k k' : κ} (v : ν) (h : m.Room k)
    (hne : k' ≠ k) : (m.put k v h).get k' = m.get k' := by
  simp [put, hne]

@[simp] theorem get_erase_self (m : BoundedMap κ ν cap) (k : κ) :
    (m.erase k).get k = none := by
  simp [erase]

theorem get_erase_ne (m : BoundedMap κ ν cap) {k k' : κ} (hne : k' ≠ k) :
    (m.erase k).get k' = m.get k' := by
  simp [erase, hne]

/-! ## Reading a slot array as a map -/

open SlotScan

variable {n : Nat}

/-- The map held by an array of keys and an array of values; the first slot of
a key counts. -/
def ofSlots (hole : κ) (keys : Fin n → κ) (vals : Fin n → ν) :
    BoundedMap κ ν n where
  get := fun k => if k = hole then none else (lookup keys k).map vals
  keys := (used hole keys).image keys
  mem_keys := by
    intro k
    by_cases hk : k = hole
    · simp [hk]
    · simp only [hk, if_false, Option.isSome_map, lookup_isSome_iff,
        Finset.mem_image, mem_used]
      constructor
      · rintro ⟨i, _, hi⟩
        exact ⟨i, hi⟩
      · rintro ⟨i, hi⟩
        exact ⟨i, by rw [hi]; exact hk, hi⟩
  card_keys := Nat.le_trans Finset.card_image_le (card_used_le hole keys)

variable {hole : κ} {keys : Fin n → κ} {vals : Fin n → ν}

theorem get_ofSlots {k : κ} (hk : k ≠ hole) :
    (ofSlots hole keys vals).get k = (lookup keys k).map vals := by
  simp [ofSlots, hk]

@[simp] theorem get_ofSlots_hole : (ofSlots hole keys vals).get hole = none := by
  simp [ofSlots]

/-- The number of keys is the number of occupied slots. -/
theorem card_keys_ofSlots (h : Distinct hole keys) :
    (ofSlots hole keys vals).keys.card = (used hole keys).card :=
  h.card_image_used

/-- There is room for a key exactly when the scan for it ends with a slot. -/
theorem room_ofSlots_iff (h : Distinct hole keys) {k : κ} (hk : k ≠ hole) :
    (ofSlots hole keys vals).Room k ↔
      (lookup keys k).isSome ∨ (lookup keys hole).isSome := by
  rw [Room, card_keys_ofSlots h, ← exists_hole_iff, mem_keys, get_ofSlots hk,
    Option.isSome_map]

/-- A key that is looked up as before, and not in the slot, has the value it
had. -/
theorem get_ofSlots_update {keys' : Fin n → κ} {k : κ} {s : Fin n} (v : ν)
    (hsame : k ≠ hole → lookup keys' k = lookup keys k) (hs : k ≠ hole → keys s ≠ k) :
    (ofSlots hole keys' (Function.update vals s v)).get k = (ofSlots hole keys vals).get k := by
  by_cases hhole : k = hole
  · subst hhole
    simp
  · rw [get_ofSlots hhole, get_ofSlots hhole, hsame hhole]
    cases hl : lookup keys k with
    | none => rfl
    | some i =>
        have his : i ≠ s := by
          rintro rfl
          exact hs hhole (lookup_some hl)
        simp [his]

/-- Overwriting the value in the slot of `k` stores it under `k`. -/
theorem ofSlots_overwrite {k : κ} {s : Fin n} (v : ν)
    (hs : lookup keys k = some s) (hroom : (ofSlots hole keys vals).Room k)
    (hk : k ≠ hole) :
    ofSlots hole keys (Function.update vals s v) = (ofSlots hole keys vals).put k v hroom := by
  ext1 k'
  by_cases hkk : k' = k
  · subst hkk
    rw [get_put_self, get_ofSlots hk, hs]
    simp
  · rw [get_put_ne _ _ _ hkk]
    exact get_ofSlots_update v (fun _ => rfl) fun _ hk' => hkk (hk'.symm.trans (lookup_some hs))

/-- Writing an absent key and its value into a hole stores it. -/
theorem ofSlots_set_hole {k : κ} {s : Fin n} (v : ν)
    (habs : lookup keys k = none) (hs : keys s = hole)
    (hroom : (ofSlots hole keys vals).Room k) (hk : k ≠ hole) :
    ofSlots hole (Function.update keys s k) (Function.update vals s v) =
      (ofSlots hole keys vals).put k v hroom := by
  ext1 k'
  by_cases hkk : k' = k
  · subst hkk
    rw [get_put_self, get_ofSlots hk, lookup_set_hole habs s]
    simp
  · rw [get_put_ne _ _ _ hkk]
    refine get_ofSlots_update v (fun hhole => ?_) fun hhole hk' => hhole (hk'.symm.trans hs)
    exact lookup_update_ne (by rw [hs]; exact Ne.symm hhole) (Ne.symm hkk)

/-- Emptying an occupied slot removes its key, whatever is left behind as the
value of the slot. -/
theorem ofSlots_clear_slot (h : Distinct hole keys) {s : Fin n} (v : ν)
    (hs : keys s ≠ hole) :
    ofSlots hole (Function.update keys s hole) (Function.update vals s v) =
      (ofSlots hole keys vals).erase (keys s) := by
  ext1 k'
  by_cases hkk : k' = keys s
  · subst hkk
    rw [get_erase_self, get_ofSlots hs, h.lookup_clear_slot hs]
    rfl
  · rw [get_erase_ne _ hkk]
    exact get_ofSlots_update v (fun hhole => lookup_update_ne (Ne.symm hkk) (Ne.symm hhole))
      fun _ => Ne.symm hkk

end BoundedMap

end MtRdma.Verified
