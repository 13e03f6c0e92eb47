/-
Module: HftAlgorithms.Lib.FixedWidth
Purpose: The 32-bit arithmetic facts the development rests on: when a machine
  sum is the exact sum, and the numeric orders of words.
Trusted boundary: none
Main exports: FixedWidth.toNat_add_of_lt, FixedWidth.toInt_add_toInt32,
  FixedWidth.toInt_sub_toInt32, FixedWidth.toNat_toUInt32_max_zero
-/
import Mathlib.Order.Defs.LinearOrder
import Mathlib.Data.Int.Order.Basic
import Mathlib.Algebra.Ring.Int.Defs
import Mathlib.Algebra.Ring.Nat

/-- Signed 32-bit words in their numeric order. -/
instance int32LinearOrder : LinearOrder Int32 where
  le_refl := Int32.le_refl
  le_trans _ _ _ := Int32.le_trans
  le_antisymm _ _ := Int32.le_antisymm
  le_total := Int32.le_total
  lt_iff_le_not_ge a b := by
    rw [Int32.not_le]
    constructor
    · intro lt
      exact ⟨Int32.le_of_lt lt, lt⟩
    · exact fun both => both.2
  toDecidableLE := inferInstance
  toDecidableEq := inferInstance
  toDecidableLT := inferInstance
  compare_eq_compareOfLessAndEq _ _ := rfl

/-- Unsigned 64-bit words in their numeric order. -/
instance uint64LinearOrder : LinearOrder UInt64 where
  le_refl := UInt64.le_refl
  le_trans _ _ _ := UInt64.le_trans
  le_antisymm _ _ := UInt64.le_antisymm
  le_total := UInt64.le_total
  lt_iff_le_not_ge a b := by
    rw [UInt64.not_le]
    constructor
    · intro lt
      exact ⟨UInt64.le_of_lt lt, lt⟩
    · exact fun both => both.2
  toDecidableLE := inferInstance
  toDecidableEq := inferInstance
  toDecidableLT := inferInstance
  compare_eq_compareOfLessAndEq _ _ := rfl

namespace FixedWidth

/-- An unsigned sum that fits is exact. -/
theorem toNat_add_of_lt {a b : UInt32} (fits : a.toNat + b.toNat < 2 ^ 32) :
    (a + b).toNat = a.toNat + b.toNat := by
  rw [UInt32.toNat_add, Nat.mod_eq_of_lt fits]

/-- An unsigned difference that does not underflow is exact. -/
theorem toNat_sub_of_le {a b : UInt32} (le : b.toNat ≤ a.toNat) :
    (a - b).toNat = a.toNat - b.toNat :=
  UInt32.toNat_sub_of_le a b (UInt32.le_iff_toNat_le.mpr le)

/-- Reading an unsigned word as signed only changes the representative. -/
theorem toInt_toInt32 (q : UInt32) : q.toInt32.toInt = (q.toNat : Int).bmod (2 ^ 32) :=
  BitVec.toInt_eq_toNat_bmod q.toBitVec

/-- Adding an unsigned word to a signed one is exact when the sum is a signed word. -/
theorem toInt_add_toInt32 {p : Int32} {q : UInt32}
    (low : -2 ^ 31 ≤ p.toInt + q.toNat) (high : p.toInt + q.toNat < 2 ^ 31) :
    (p + q.toInt32).toInt = p.toInt + q.toNat := by
  rw [Int32.toInt_add, toInt_toInt32, Int.add_bmod_bmod]
  exact Int.bmod_eq_of_le (by omega) (by omega)

/-- Subtracting an unsigned word from a signed one is exact when the difference is a
signed word. -/
theorem toInt_sub_toInt32 {p : Int32} {q : UInt32}
    (low : -2 ^ 31 ≤ p.toInt - q.toNat) (high : p.toInt - q.toNat < 2 ^ 31) :
    (p - q.toInt32).toInt = p.toInt - q.toNat := by
  rw [Int32.toInt_sub, toInt_toInt32, Int.sub_bmod_bmod]
  exact Int.bmod_eq_of_le (by omega) (by omega)

/-- `std::max(0, p)` converted to unsigned is the positive part of `p`. -/
theorem toNat_toUInt32_max_zero (p : Int32) :
    ((max 0 p).toUInt32.toNat : Int) = max 0 p.toInt := by
  by_cases nonneg : 0 ≤ p
  · have value := Int32.le_iff_toInt_le.mp nonneg
    rw [Int32.toInt_zero] at value
    rw [max_eq_right nonneg, max_eq_right value, Int32.toNat_toUInt32_of_le nonneg]
    exact Int.toNat_of_nonneg value
  · have negative := Int32.lt_iff_toInt_lt.mp (Int32.not_le.mp nonneg)
    rw [Int32.toInt_zero] at negative
    rw [max_eq_left (Int32.le_of_lt (Int32.not_le.mp nonneg)), max_eq_left (le_of_lt negative)]
    rfl

/-- Negation is exact except at the least signed word, which it leaves alone. -/
theorem toInt_neg_of_ne {p : Int32} (h : p ≠ Int32.minValue) : (-p).toInt = -p.toInt := by
  have low := p.le_toInt
  have high := p.toInt_lt
  have notLeast : p.toInt ≠ -2 ^ 31 := fun least => h (Int32.toInt_inj.mp least)
  rw [Int32.toInt_neg]
  exact Int.bmod_eq_of_le (by omega) (by omega)

/-- The machine absolute value is the absolute value, except at the least signed word. -/
theorem toInt_abs_of_ne {p : Int32} (h : p ≠ Int32.minValue) : p.abs.toInt = p.toInt.natAbs := by
  have notLeast : p.toBitVec ≠ BitVec.intMin 32 := fun least => h (Int32.toBitVec_inj.mp least)
  exact BitVec.toInt_abs_eq_natAbs_of_ne_intMin notLeast

/-- Read as unsigned, the machine absolute value is the absolute value of every word. -/
theorem toNat_toUInt32_abs (p : Int32) : p.abs.toUInt32.toNat = p.toInt.natAbs := by
  change p.toBitVec.abs.toNat = p.toBitVec.toInt.natAbs
  rw [BitVec.toNat_abs, BitVec.toInt_eq_msb_cond]
  have below := p.toBitVec.isLt
  split <;> omega

/-- A word that is not negative is its own absolute value, also unsigned. -/
theorem toNat_toUInt32_abs_of_nonneg {p : Int32} (nonneg : 0 ≤ p) :
    p.abs.toUInt32.toNat = p.toInt.toNat := by
  have value := Int32.le_iff_toInt_le.mp nonneg
  rw [Int32.toInt_zero] at value
  rw [toNat_toUInt32_abs]
  omega

/-- At the least signed word the machine absolute value is that word again. -/
theorem abs_minValue : Int32.minValue.abs = Int32.minValue := by decide

end FixedWidth
