/-
Module: HftAlgorithms.Lib.WrappingCounter
Purpose: The words a 64-bit counter goes through: when one counter repeats
  itself, and when two counters that start apart meet.
Trusted boundary: none
Main exports: WrappingCounter.countFrom, WrappingCounter.mem_countFrom,
  WrappingCounter.nodup_countFrom, WrappingCounter.disjoint_countFrom
-/
import Mathlib.Algebra.Order.Ring.Nat
import Mathlib.Data.List.Nodup
import Mathlib.Data.List.Range

namespace WrappingCounter

/-- The first `count` words from `start` on, each one more than the word before. -/
def countFrom (start : UInt64) : Nat → List UInt64
  | 0 => []
  | count + 1 => start :: countFrom (start + 1) count

theorem toNat_sub_succ {start word : UInt64} (later : word ≠ start) :
    (word - start).toNat = (word - (start + 1)).toNat + 1 := by
  have apart : start.toNat ≠ word.toNat := fun same => later (UInt64.toNat_inj.mp same).symm
  have one : (1 : UInt64).toNat = 1 := rfl
  have low := start.toNat_lt
  have high := word.toNat_lt
  simp only [UInt64.toNat_sub, UInt64.toNat_add, one]
  omega

/-- A word is among them when it is less than `count` steps ahead. -/
theorem mem_countFrom {start word : UInt64} {count : Nat} :
    word ∈ countFrom start count ↔ (word - start).toNat < count := by
  induction count generalizing start with
  | zero => simp [countFrom]
  | succ count inductionHypothesis =>
      rw [countFrom, List.mem_cons, inductionHypothesis]
      by_cases here : word = start
      · simp [here]
      · rw [toNat_sub_succ here]
        simp [here]

/-- One counter repeats itself only when it has gone all the way round. -/
theorem nodup_countFrom {start : UInt64} {count : Nat} :
    (countFrom start count).Nodup ↔ count ≤ 2 ^ 64 := by
  induction count generalizing start with
  | zero => simp [countFrom]
  | succ count inductionHypothesis =>
      have back : (start - (start + 1)).toNat = 2 ^ 64 - 1 := by
        have one : (1 : UInt64).toNat = 1 := rfl
        have low := start.toNat_lt
        simp only [UInt64.toNat_sub, UInt64.toNat_add, one]
        omega
      rw [countFrom, List.nodup_cons, mem_countFrom, inductionHypothesis, back]
      omega

/-- Two counters that have both counted are apart as long as neither has reached the start of the
other. -/
theorem disjoint_countFrom {first second : UInt64} {count other : Nat} (some : 0 < count)
    (someOther : 0 < other) :
    (countFrom first count).Disjoint (countFrom second other) ↔
      count ≤ (second - first).toNat ∧ other ≤ (first - second).toNat := by
  constructor
  · intro disjoint
    constructor
    · by_contra reached
      exact disjoint (mem_countFrom.mpr (not_le.mp reached)) (mem_countFrom.mpr (by simpa))
    · by_contra reached
      exact disjoint (mem_countFrom.mpr (by simpa)) (mem_countFrom.mpr (not_le.mp reached))
  · rintro ⟨below, belowOther⟩ word inFirst inSecond
    have ahead := mem_countFrom.mp inFirst
    have aheadOther := mem_countFrom.mp inSecond
    have low := first.toNat_lt
    have high := second.toNat_lt
    have top := word.toNat_lt
    simp only [UInt64.toNat_sub] at ahead aheadOther below belowOther
    omega

end WrappingCounter
