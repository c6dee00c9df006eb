import Mathlib.Data.ZMod.Basic

/-!
# Residue classes of machine integers

A counter that wraps is exact modulo its width.  `class32` and `class64` read
a wrapping counter as an element of `ZMod (2 ^ 32)` and `ZMod (2 ^ 64)`, where
addition and subtraction never lose anything; the last section returns to the
integers, for counters that stay in range.
-/

namespace MtRdma.Verified.MachineInt

/-- An `int32_t` modulo its width. -/
def class32 (x : Int32) : ZMod (2 ^ 32) := (x.toInt : ZMod (2 ^ 32))

/-- A `uint64_t` modulo its width. -/
def class64 (x : UInt64) : ZMod (2 ^ 64) := ((x.toNat : Int) : ZMod (2 ^ 64))

private theorem cast_bmod (n : Nat) (x : Int) : ((x.bmod n : Int) : ZMod n) = (x : ZMod n) := by
  have hmod : (x.bmod n) % (n : Int) = x % (n : Int) := Int.bmod_emod
  exact (ZMod.intCast_eq_intCast_iff' _ _ _).mpr hmod

theorem class32_zero : class32 0 = 0 := by
  show ((0 : Int) : ZMod (2 ^ 32)) = 0
  exact Int.cast_zero

theorem class32_add (x y : Int32) : class32 (x + y) = class32 x + class32 y := by
  unfold class32
  rw [Int32.toInt_add, cast_bmod, Int.cast_add]

theorem class32_sub (x y : Int32) : class32 (x - y) = class32 x - class32 y := by
  unfold class32
  rw [Int32.toInt_sub, cast_bmod, Int.cast_sub]

theorem class64_zero : class64 0 = 0 := by
  show ((0 : Int) : ZMod (2 ^ 64)) = 0
  exact Int.cast_zero

theorem class64_add (x y : UInt64) : class64 (x + y) = class64 x + class64 y := by
  have hmod : ((x + y).toNat : Int) % ((2 ^ 64 : Nat) : Int) =
      ((x.toNat : Int) + y.toNat) % ((2 ^ 64 : Nat) : Int) := by
    have hadd : (x + y).toNat = (x.toNat + y.toNat) % 2 ^ 64 := UInt64.toNat_add x y
    omega
  unfold class64
  rw [(ZMod.intCast_eq_intCast_iff' _ _ _).mpr hmod, Int.cast_add]

theorem class64_sub (x y : UInt64) : class64 (x - y) = class64 x - class64 y := by
  have hsum := class64_add (x - y) y
  rw [UInt64.sub_add_cancel] at hsum
  rw [hsum, add_sub_cancel_right]

/-! ## Counters that follow an integer -/

theorem ofInt_add_one (n : Int) : Int32.ofInt (n + 1) = Int32.ofInt n + 1 := by
  rw [Int32.ofInt_add]
  rfl

theorem ofInt_sub_one (n : Int) : Int32.ofInt (n - 1) = Int32.ofInt n + -1 := by
  rw [Int32.ofInt_sub, Int32.sub_eq_add_neg]
  rfl

/-- An unsigned counter read as signed follows the same integer. -/
theorem toInt32_eq_ofInt (x : UInt32) : x.toInt32 = Int32.ofInt x.toNat := by
  apply Int32.toBitVec_inj.mp
  show x.toBitVec = BitVec.ofInt 32 (x.toNat : Int)
  apply BitVec.eq_of_toNat_eq
  have hlt := UInt32.toNat_lt x
  rw [BitVec.toNat_ofInt]
  show x.toNat = _
  omega

/-- An integer stored as signed and read as unsigned is its residue. -/
theorem toNat_toUInt32_ofInt_emod (n : Int) :
    ((Int32.ofInt n).toUInt32.toNat : Int) = n % 2 ^ 32 := by
  show ((BitVec.ofInt 32 n).toNat : Int) = n % 2 ^ 32
  rw [BitVec.toNat_ofInt]
  omega

theorem toNat_toUInt64_ofInt_emod (n : Int) :
    ((Int64.ofInt n).toUInt64.toNat : Int) = n % 2 ^ 64 := by
  show ((BitVec.ofInt 64 n).toNat : Int) = n % 2 ^ 64
  rw [BitVec.toNat_ofInt]
  omega

/-- Read as unsigned, the counter is the integer it follows. -/
theorem toNat_toUInt32_ofInt {n : Nat} (h : n < 2 ^ 32) :
    (Int32.ofInt n).toUInt32.toNat = n := by
  have hmod := toNat_toUInt32_ofInt_emod n
  omega

/-! ## Counters in range -/

theorem toInt_add_one {x : Int32} (h : x.toInt < 2 ^ 31 - 1) : (x + 1).toInt = x.toInt + 1 := by
  have hlo : -2 ^ 31 ≤ x.toInt := Int32.le_toInt x
  have hone : (1 : Int32).toInt = 1 := rfl
  rw [Int32.toInt_add, hone]
  apply Int.bmod_eq_of_le <;> omega

theorem toInt_sub_one {x : Int32} (h : -2 ^ 31 < x.toInt) : (x - 1).toInt = x.toInt - 1 := by
  have hhi : x.toInt < 2 ^ 31 := Int32.toInt_lt x
  have hone : (1 : Int32).toInt = 1 := rfl
  rw [Int32.toInt_sub, hone]
  apply Int.bmod_eq_of_le <;> omega

/-- Counting down wraps at the lower end. -/
theorem toInt_add_neg_one (x : Int32) :
    (x + -1).toInt = if x.toInt = -2 ^ 31 then 2 ^ 31 - 1 else x.toInt - 1 := by
  have hlo : -2 ^ 31 ≤ x.toInt := Int32.le_toInt x
  have hhi : x.toInt < 2 ^ 31 := Int32.toInt_lt x
  have hone : (-1 : Int32).toInt = -1 := by decide
  rw [Int32.toInt_add, hone, Int.bmod_def]
  split <;> split <;> omega

/-- Taking a smaller count out of a larger one. -/
theorem toInt_sub_of_le {x y : Int32} (hy : 0 ≤ y.toInt) (h : y.toInt ≤ x.toInt) :
    (x - y).toInt = x.toInt - y.toInt := by
  have hhi : x.toInt < 2 ^ 31 := Int32.toInt_lt x
  rw [Int32.toInt_sub]
  apply Int.bmod_eq_of_le <;> omega

/-- One count of a total is replaced by another. -/
theorem toInt_add_sub {x y z : Int32} (hlo : -2 ^ 31 ≤ x.toInt + (y.toInt - z.toInt))
    (hhi : x.toInt + (y.toInt - z.toInt) < 2 ^ 31) :
    (x + (y - z)).toInt = x.toInt + (y.toInt - z.toInt) := by
  rw [Int32.toInt_add, Int32.toInt_sub, Int.add_bmod_bmod]
  apply Int.bmod_eq_of_le <;> omega

/-- A subtraction that stops at zero is exact below what it subtracts from. -/
theorem toInt_clamped_sub {x y : Int32} (hy : 0 ≤ y.toInt) (h : y.toInt ≤ x.toInt) :
    (if y < x then x - y else 0).toInt = x.toInt - y.toInt := by
  by_cases hlt : y < x
  · rw [if_pos hlt, toInt_sub_of_le hy h]
  · rw [if_neg hlt]
    rw [Int32.lt_iff_toInt_lt] at hlt
    show (0 : Int) = _
    omega

/-- A count that is not negative keeps its value when it is read as
unsigned. -/
theorem toNat_toUInt32 {x : Int32} (h : 0 ≤ x.toInt) : (x.toUInt32.toNat : Int) = x.toInt := by
  show ((x.toBitVec.toNat : Nat) : Int) = x.toInt
  rw [← Int32.toInt_toBitVec] at h ⊢
  rw [BitVec.toInt_eq_toNat_cond] at h ⊢
  split
  · rfl
  · rename_i hn
    rw [if_neg hn] at h
    have hlt := x.toBitVec.isLt
    omega

theorem toNat_add_one {x : UInt64} (h : x.toNat + 1 < 2 ^ 64) : (x + 1).toNat = x.toNat + 1 := by
  have hadd : (x + 1).toNat = (x.toNat + 1) % 2 ^ 64 := UInt64.toNat_add x 1
  rw [hadd, Nat.mod_eq_of_lt h]

theorem toNat_add_one32 {x : UInt32} (h : x.toNat + 1 < 2 ^ 32) : (x + 1).toNat = x.toNat + 1 := by
  have hadd : (x + 1).toNat = (x.toNat + 1) % 2 ^ 32 := UInt32.toNat_add x 1
  rw [hadd, Nat.mod_eq_of_lt h]

/-- Counting down from a counter that is not zero. -/
theorem toNat_sub_one {x : UInt32} {n : Nat} (h : x.toNat = n + 1) : (x - 1).toNat = n := by
  have hone : (1 : UInt32) ≤ x := by
    rw [UInt32.le_iff_toNat_le, h]
    exact Nat.le_add_left 1 n
  have hsub : (x - 1).toNat = x.toNat - 1 := UInt32.toNat_sub_of_le x 1 hone
  rw [hsub, h]
  rfl

/-- A guarded decrement takes place on a counter that is not zero. -/
theorem toNat_guarded_sub_one {x : UInt32} {n : Nat} (h : x.toNat = n + 1) :
    (if 0 < x then x - 1 else x).toNat = n := by
  have hpos : 0 < x := by
    rw [UInt32.lt_iff_toNat_lt, h]
    exact Nat.succ_pos n
  rw [if_pos hpos]
  exact toNat_sub_one h

/-! ## A guarded decrement after an increment -/

theorem guarded_sub_after_add_int32 {x : Int32} (h : 0 ≤ x.toInt) :
    (if 0 < x + 1 then x + 1 - 1 else x + 1) = x ↔ x.toInt < 2 ^ 31 - 1 := by
  have hhi : x.toInt < 2 ^ 31 := Int32.toInt_lt x
  by_cases hroom : x.toInt < 2 ^ 31 - 1
  · have hpos : 0 < x + 1 := by
      rw [Int32.lt_iff_toInt_lt, toInt_add_one hroom]
      show (0 : Int) < _
      omega
    rw [if_pos hpos, Int32.add_sub_cancel]
    exact iff_of_true rfl hroom
  · have hmax : x = Int32.ofInt (2 ^ 31 - 1) := by
      rw [← Int32.toInt_inj, Int32.toInt_ofInt_of_le (by decide) (by decide)]
      omega
    subst hmax
    exact iff_of_false (by decide) hroom

theorem guarded_sub_after_add_uint64 (x : UInt64) :
    (if 0 < x + 1 then x + 1 - 1 else x + 1) = x ↔ x.toNat < 2 ^ 64 - 1 := by
  have hhi : x.toNat < 2 ^ 64 := x.toNat_lt
  by_cases hroom : x.toNat < 2 ^ 64 - 1
  · have hpos : 0 < x + 1 := by
      rw [UInt64.lt_iff_toNat_lt, toNat_add_one (by omega)]
      exact Nat.succ_pos _
    rw [if_pos hpos, UInt64.add_sub_cancel]
    exact iff_of_true rfl hroom
  · have hmax : x = UInt64.ofNat (2 ^ 64 - 1) := by
      rw [← UInt64.toNat_inj, UInt64.toNat_ofNat_of_lt' (by decide)]
      omega
    subst hmax
    exact iff_of_false (by decide) hroom

/-! ## Limits compared with a sum -/

theorem lt_add_iff_wrapped32 (limit x y : UInt32) :
    limit < x + y ↔ limit.toNat < (x.toNat + y.toNat) % 2 ^ 32 := by
  rw [UInt32.lt_iff_toNat_lt, UInt32.toNat_add]

theorem lt_add_iff_wrapped64 (limit x y : UInt64) :
    limit < x + y ↔ limit.toNat < (x.toNat + y.toNat) % 2 ^ 64 := by
  rw [UInt64.lt_iff_toNat_lt, UInt64.toNat_add]

/-- A limit is compared with the sum itself when the sum does not wrap, and
when it is below what is left of one that does. -/
theorem wrapped_lt_exact_iff {m limit x y : Nat} (hlimit : limit < m) (hx : x < m) (hy : y < m) :
    (limit < (x + y) % m ↔ limit < x + y) ↔ x + y < m ∨ limit < x + y - m := by
  by_cases hsum : x + y < m
  · rw [Nat.mod_eq_of_lt hsum]
    exact iff_of_true Iff.rfl (.inl hsum)
  · have hmod : (x + y) % m = x + y - m := by
      rw [Nat.mod_eq_sub_mod (Nat.le_of_not_lt hsum), Nat.mod_eq_of_lt (by omega)]
    rw [hmod]
    omega

end MtRdma.Verified.MachineInt
