/-
Module: HftAlgorithms.Proofs.ArbSizing
Purpose: The arb quantities are the largest that the displayed quantities and the
  position limit allow.
Trusted boundary: none
Main exports: le_foldl_min_iff, Run.le_creationQty_iff, Run.le_redemptionQty_iff,
  ArbSnapshot.CreationFeasible, ArbSnapshot.RedemptionFeasible,
  Run.arbQty_isGreatest
-/
import HftAlgorithms.Proofs.BotRuns
import HftAlgorithms.Arb.Redemption
import Mathlib.Order.Bounds.Basic

namespace HftAlgorithms

/-! ### Minima -/

/-- What is below a running minimum is below where it starts and below all that it takes in. -/
theorem le_foldl_min_iff {ι α β : Type*} [Min α] [LinearOrder β] {value : α → β}
    (map_min : ∀ one two, value (min one two) = min (value one) (value two))
    (first second : ι → α) (items : List ι) (start : α) (bound : β) :
    bound ≤ value (items.foldl (fun least item => min (min least (first item)) (second item))
        start) ↔
      bound ≤ value start ∧
        ∀ item ∈ items, bound ≤ value (first item) ∧ bound ≤ value (second item) := by
  induction items generalizing start with
  | nil => simp
  | cons item items inductionHypothesis =>
      simp [inductionHypothesis, map_min, and_assoc]

theorem toInt_min (first second : Int32) :
    (min first second).toInt = min first.toInt second.toInt := by
  have monotone : Monotone Int32.toInt := fun _ _ => Int32.le_iff_toInt_le.mp
  exact monotone.map_min

theorem toInt_POSITION_LIMIT : POSITION_LIMIT.toInt = 9 := rfl

/-- A displayed quantity is never seen larger than it is. -/
theorem toInt_toInt32_le (qty : UInt32) : qty.toInt32.toInt ≤ qty.toNat := by
  rw [FixedWidth.toInt_toInt32, Int.bmod_def]
  split <;> omega

theorem toInt_toInt32_of_lt {qty : UInt32} (fits : qty.toNat < 2 ^ 31) :
    qty.toInt32.toInt = qty.toNat := by
  rw [FixedWidth.toInt_toInt32]
  exact Int.bmod_eq_of_le (by omega) (by omega)

namespace ArbSnapshot

/-- The positions are within a billion. -/
structure Moderate (snap : ArbSnapshot) : Prop where
  dorms : ∀ dorm ∈ snap.dorms.toList, dorm.position.toInt.natAbs ≤ 10 ^ 9
  undy : snap.undyPosition.toInt.natAbs ≤ 10 ^ 9

/-- The displayed quantities are words of 31 bits. -/
structure DisplaysSigned (snap : ArbSnapshot) : Prop where
  dorms : ∀ dorm ∈ snap.dorms.toList,
    dorm.bestBidQty.toNat < 2 ^ 31 ∧ dorm.bestAskQty.toNat < 2 ^ 31
  undy : snap.undyBestBidQty.toNat < 2 ^ 31 ∧ snap.undyBestAskQty.toNat < 2 ^ 31

/-- What can be bought of every dorm and sold of UNDY. -/
def CreationFeasible (snap : ArbSnapshot) : Set Int :=
  {qty | qty ≤ snap.undyBestBidQty.toNat ∧
    (∀ dorm ∈ snap.dorms.toList,
      qty ≤ dorm.bestAskQty.toNat ∧ dorm.position.toInt + qty ≤ POSITION_LIMIT.toInt) ∧
    -POSITION_LIMIT.toInt ≤ snap.undyPosition.toInt - qty}

/-- What can be bought of UNDY and sold of every dorm. -/
def RedemptionFeasible (snap : ArbSnapshot) : Set Int :=
  {qty | qty ≤ snap.undyBestAskQty.toNat ∧
    snap.undyPosition.toInt + qty ≤ POSITION_LIMIT.toInt ∧
    ∀ dorm ∈ snap.dorms.toList,
      qty ≤ dorm.bestBidQty.toNat ∧ -POSITION_LIMIT.toInt ≤ dorm.position.toInt - qty}

end ArbSnapshot

namespace Run

/-- The room that is left above a position. -/
theorem toInt_limit_sub {position : Int32} (moderate : position.toInt.natAbs ≤ 10 ^ 9) :
    (POSITION_LIMIT - position).toInt = 9 - position.toInt := by
  rw [Int32.toInt_sub, toInt_POSITION_LIMIT]
  exact Int.bmod_eq_of_le (by omega) (by omega)

/-- The room that is left below it. -/
theorem toInt_limit_add {position : Int32} (moderate : position.toInt.natAbs ≤ 10 ^ 9) :
    (POSITION_LIMIT + position).toInt = 9 + position.toInt := by
  rw [Int32.toInt_add, toInt_POSITION_LIMIT]
  exact Int.bmod_eq_of_le (by omega) (by omega)

section Quantities

variable (snap : ArbSnapshot) (qty : Int)

theorem le_creationQty_iff :
    qty ≤ (creationQty snap).toInt ↔
      qty ≤ snap.undyBestBidQty.toInt32.toInt ∧
        (∀ dorm ∈ snap.dorms.toList, qty ≤ dorm.bestAskQty.toInt32.toInt ∧
          qty ≤ (POSITION_LIMIT - dorm.position).toInt) ∧
        qty ≤ (POSITION_LIMIT + snap.undyPosition).toInt := by
  rw [creationQty, toInt_min, le_min_iff, le_foldl_min_iff toInt_min, and_assoc]

theorem le_redemptionQty_iff :
    qty ≤ (redemptionQty snap).toInt ↔
      qty ≤ snap.undyBestAskQty.toInt32.toInt ∧
        qty ≤ (POSITION_LIMIT - snap.undyPosition).toInt ∧
        ∀ dorm ∈ snap.dorms.toList, qty ≤ dorm.bestBidQty.toInt32.toInt ∧
          qty ≤ (POSITION_LIMIT + dorm.position).toInt := by
  rw [redemptionQty, le_foldl_min_iff toInt_min, toInt_min, le_min_iff, and_assoc]

variable {snap qty}

/-- Whatever is displayed, a creation quantity can be bought and sold. -/
theorem creationFeasible_of_le (moderate : snap.Moderate)
    (below : qty ≤ (creationQty snap).toInt) : qty ∈ snap.CreationFeasible := by
  obtain ⟨undy, dorms, room⟩ := (le_creationQty_iff snap qty).mp below
  rw [toInt_limit_add moderate.undy] at room
  refine ⟨undy.trans (toInt_toInt32_le _), ?_, by rw [toInt_POSITION_LIMIT]; omega⟩
  intro dorm member
  obtain ⟨displayed, above⟩ := dorms dorm member
  rw [toInt_limit_sub (moderate.dorms dorm member)] at above
  exact ⟨displayed.trans (toInt_toInt32_le _), by rw [toInt_POSITION_LIMIT]; omega⟩

/-- Where the displayed quantities are signed words, there is no larger one. -/
theorem le_creationQty_of_feasible (moderate : snap.Moderate) (signed : snap.DisplaysSigned)
    (feasible : qty ∈ snap.CreationFeasible) : qty ≤ (creationQty snap).toInt := by
  obtain ⟨undy, dorms, room⟩ := feasible
  rw [toInt_POSITION_LIMIT] at room
  apply (le_creationQty_iff snap qty).mpr
  rw [toInt_toInt32_of_lt signed.undy.1, toInt_limit_add moderate.undy]
  refine ⟨undy, ?_, by omega⟩
  intro dorm member
  obtain ⟨displayed, above⟩ := dorms dorm member
  rw [toInt_POSITION_LIMIT] at above
  rw [toInt_toInt32_of_lt (signed.dorms dorm member).2,
    toInt_limit_sub (moderate.dorms dorm member)]
  exact ⟨displayed, by omega⟩

theorem redemptionFeasible_of_le (moderate : snap.Moderate)
    (below : qty ≤ (redemptionQty snap).toInt) : qty ∈ snap.RedemptionFeasible := by
  obtain ⟨undy, room, dorms⟩ := (le_redemptionQty_iff snap qty).mp below
  rw [toInt_limit_sub moderate.undy] at room
  refine ⟨undy.trans (toInt_toInt32_le _), by rw [toInt_POSITION_LIMIT]; omega, ?_⟩
  intro dorm member
  obtain ⟨displayed, under⟩ := dorms dorm member
  rw [toInt_limit_add (moderate.dorms dorm member)] at under
  exact ⟨displayed.trans (toInt_toInt32_le _), by rw [toInt_POSITION_LIMIT]; omega⟩

theorem le_redemptionQty_of_feasible (moderate : snap.Moderate) (signed : snap.DisplaysSigned)
    (feasible : qty ∈ snap.RedemptionFeasible) : qty ≤ (redemptionQty snap).toInt := by
  obtain ⟨undy, room, dorms⟩ := feasible
  rw [toInt_POSITION_LIMIT] at room
  apply (le_redemptionQty_iff snap qty).mpr
  rw [toInt_toInt32_of_lt signed.undy.2, toInt_limit_sub moderate.undy]
  refine ⟨undy, by omega, ?_⟩
  intro dorm member
  obtain ⟨displayed, under⟩ := dorms dorm member
  rw [toInt_POSITION_LIMIT] at under
  rw [toInt_toInt32_of_lt (signed.dorms dorm member).1,
    toInt_limit_add (moderate.dorms dorm member)]
  exact ⟨displayed, by omega⟩

end Quantities

/-- Both arb quantities are feasible, whatever quantities are displayed; where those are signed
words, both are the largest that are. -/
theorem arbQty_isGreatest (snap : ArbSnapshot) (moderate : snap.Moderate) :
    (creationQty snap).toInt ∈ snap.CreationFeasible ∧
      (redemptionQty snap).toInt ∈ snap.RedemptionFeasible ∧
      (snap.DisplaysSigned →
        IsGreatest snap.CreationFeasible (creationQty snap).toInt ∧
          IsGreatest snap.RedemptionFeasible (redemptionQty snap).toInt) := by
  have creation := creationFeasible_of_le moderate (le_refl (creationQty snap).toInt)
  have redemption := redemptionFeasible_of_le moderate (le_refl (redemptionQty snap).toInt)
  refine ⟨creation, redemption, fun signed => ⟨⟨creation, ?_⟩, redemption, ?_⟩⟩
  · exact fun qty feasible => le_creationQty_of_feasible moderate signed feasible
  · exact fun qty feasible => le_redemptionQty_of_feasible moderate signed feasible

theorem arbQty_isGreatest_cheapDorms :
    IsGreatest cheapDorms.CreationFeasible 5 ∧ IsGreatest cheapDorms.RedemptionFeasible 5 := by
  have alike : ∀ dorm ∈ cheapDorms.dorms.toList, dorm = ⟨80, 90, 5, 5, 0⟩ := by simp [cheapDorms]
  have moderate : cheapDorms.Moderate := by
    refine ⟨?_, by decide⟩
    intro dorm member
    rw [alike dorm member]
    decide
  have signed : cheapDorms.DisplaysSigned := by
    refine ⟨?_, by decide⟩
    intro dorm member
    rw [alike dorm member]
    decide
  have greatest := (arbQty_isGreatest cheapDorms moderate).2.2 signed
  have creation : (creationQty cheapDorms).toInt = 5 := by decide +kernel
  have redemption : (redemptionQty cheapDorms).toInt = 5 := by decide +kernel
  rwa [creation, redemption] at greatest

end Run

end HftAlgorithms
