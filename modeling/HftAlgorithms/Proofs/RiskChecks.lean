/-
Module: HftAlgorithms.Proofs.RiskChecks
Purpose: What it means that a request passes the pure risk checks, condition by
  condition and in exact numbers where the machine words do not wrap.
Trusted boundary: none
Main exports: BookSide.held, ExposureTracker.exposureOn,
  RiskManager.checkAdded_eq_OK_iff, RiskManager.checkNewOrder_OK,
  RiskManager.checkModifyOrder_OK, RiskManager.natAbs_le_of_checkAdded
-/
import HftAlgorithms.Risk.RiskManager

namespace HftAlgorithms

/-- The part of a position that lies on one side: a long position on the buy side, a short
one on the sell side. -/
def BookSide.held (side : BookSide) (position : Int) : Int :=
  match side with
  | .bid => max 0 position
  | .ask => max 0 (-position)

namespace ExposureTracker

/-- `get_buy_exposure` or `get_sell_exposure`. -/
def exposureOn (tracker : ExposureTracker) (positions : PositionTracker) : BookSide → UInt32
  | .bid => tracker.getBuyExposure positions
  | .ask => tracker.getSellExposure positions

/-- An exposure that fits in 32 bits is the exact one. -/
theorem toNat_exposureOn {tracker : ExposureTracker} {positions : PositionTracker}
    {side : BookSide} (notLeast : positions.position ≠ Int32.minValue)
    (fits : side.held positions.position.toInt + (tracker.outstanding side).toNat < 2 ^ 32) :
    ((tracker.exposureOn positions side).toNat : Int) =
      side.held positions.position.toInt + (tracker.outstanding side).toNat := by
  cases side with
  | bid =>
      have long := FixedWidth.toNat_toUInt32_max_zero positions.position
      simp only [exposureOn, getBuyExposure, BookSide.held, outstanding] at fits ⊢
      rw [FixedWidth.toNat_add_of_lt (by omega)]
      omega
  | ask =>
      have short := FixedWidth.toNat_toUInt32_max_zero (-positions.position)
      rw [FixedWidth.toInt_neg_of_ne notLeast] at short
      simp only [exposureOn, getSellExposure, BookSide.held, outstanding] at fits ⊢
      rw [FixedWidth.toNat_add_of_lt (by omega)]
      omega

theorem wouldExceedExposure_eq (tracker : ExposureTracker) (positions : PositionTracker)
    (side : Side) (qty : UInt32) :
    tracker.wouldExceedExposure positions side qty =
      decide (tracker.exposureOn positions side.bookSide + qty > tracker.maxExposure) := by
  cases side <;> rfl

end ExposureTracker

namespace RiskManager

/-- The four checks of an added quantity. -/
theorem checkAdded_eq_OK_iff (manager : RiskManager) (side : Side) (qty : UInt32) :
    manager.checkAdded side qty = .OK ↔
      manager.exposureTracker.outstanding side.bookSide + qty ≤ manager.limits.maxQtyPerSide ∧
        manager.exposureTracker.exposureOn manager.positionTracker side.bookSide + qty ≤
          manager.exposureTracker.maxExposure ∧
        ¬ (manager.positionTracker.atLimit ∧ manager.wouldIncreaseAbsPosition side) ∧
        (movedPosition manager.getPosition side qty).abs ≤ manager.positionTracker.maxPosition := by
  have total : (if side = .BUY then manager.exposureTracker.outstandingBuyQty
      else manager.exposureTracker.outstandingSellQty) =
      manager.exposureTracker.outstanding side.bookSide := by
    cases side <;> rfl
  have moved : manager.positionTracker.wouldExceedLimit side qty =
      decide ((movedPosition manager.getPosition side qty).abs >
        manager.positionTracker.maxPosition) := rfl
  simp only [checkAdded, total, ExposureTracker.wouldExceedExposure_eq, moved, decide_eq_true_eq,
    ← not_lt, gt_iff_lt]
  split
  · simp_all
  split
  · simp_all
  split
  · simp_all
  split <;> simp_all

theorem checkNewOrder_OK {manager : RiskManager} {id : UInt64} {side : Side} {qty : UInt32}
    {price : Int32} (passes : manager.checkNewOrder id side qty price = .OK) :
    manager.isShutdown = false ∧ manager.limits.minValidPrice ≤ price ∧
      qty ≤ manager.limits.maxQtyPerOrder ∧ manager.checkAdded side qty = .OK ∧
      manager.openOrders.lookup id = none := by
  rw [checkNewOrder] at passes
  split at passes
  · cases passes
  rename_i running
  split at passes
  · cases passes
  rename_i price_ok
  split at passes
  · cases passes
  rename_i qty_ok
  split at passes
  · rename_i refused
    exact absurd passes refused
  rename_i added
  split at passes
  · cases passes
  rename_i fresh
  refine ⟨by simpa using running, Int32.not_lt.mp price_ok, UInt32.not_lt.mp qty_ok,
    by simpa using added, by simpa using fresh⟩

/-- The check of a modify: nothing for a same-side modify that does not grow the stored
quantity, the growth over it for one that does, all of it for a side flip. -/
theorem checkModifyOrder_OK {manager : RiskManager} {id : UInt64} {side : Side} {qty : UInt32}
    {price : Int32} {existing : OpenOrderInfo}
    (found : manager.openOrders.lookup id = some existing)
    (passes : manager.checkModifyOrder id side qty price = .OK) :
    manager.isShutdown = false ∧ manager.limits.minValidPrice ≤ price ∧
      qty ≤ manager.limits.maxQtyPerOrder ∧
      (side = existing.side → existing.qty < qty →
        manager.checkAdded side (qty - existing.qty) = .OK) ∧
      (side ≠ existing.side → manager.checkAdded side qty = .OK) := by
  rw [checkModifyOrder, found] at passes
  split at passes
  · cases passes
  rename_i running
  simp only at passes
  split at passes
  · cases passes
  rename_i price_ok
  split at passes
  · cases passes
  rename_i qty_ok
  refine ⟨by simpa using running, Int32.not_lt.mp price_ok, UInt32.not_lt.mp qty_ok, ?_, ?_⟩
  · intro same grows
    rw [if_pos same, if_pos grows] at passes
    exact passes
  · intro flips
    rw [if_neg flips] at passes
    exact passes

/-- A quantity that passes the checks leaves the position within its limit when all of it fills. -/
theorem natAbs_le_of_checkAdded {manager : RiskManager} {side : Side} {qty : UInt32}
    (passes : manager.checkAdded side qty = .OK) (fits : MoveFits manager.getPosition side qty) :
    ((exactMove manager.getPosition.toInt side qty.toNat).natAbs : Int) ≤
      manager.positionTracker.maxPosition.toInt := by
  obtain ⟨-, -, -, within⟩ := (checkAdded_eq_OK_iff manager side qty).mp passes
  rw [Int32.le_iff_toInt_le, fits.toInt_abs_movedPosition] at within
  exact within

end RiskManager

end HftAlgorithms
