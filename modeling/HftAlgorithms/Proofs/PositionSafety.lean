/-
Module: HftAlgorithms.Proofs.PositionSafety
Purpose: How far a single accepted order can take the position.  New orders and
  side flips are checked with their whole quantity, a same-side modify of an order
  that has had no fills only with its growth.
Trusted boundary: none
Main exports: RiskManager.Unfilled, RiskManager.accepted_requests_position_safe
-/
import HftAlgorithms.Proofs.ExposureLedger
import HftAlgorithms.Proofs.RiskChecks
import HftAlgorithms.Proofs.RiskSteps

namespace HftAlgorithms

namespace RiskManager

/-- The whole quantity, added to the position on its side, stays within the limit. -/
def FullFillSafe (limits : RiskLimits) (manager : RiskManager) (side : Side) (qty : UInt32) :
    Prop :=
  MoveFits manager.getPosition side qty →
    ((exactMove manager.getPosition.toInt side qty.toNat).natAbs : Int) ≤ limits.maxPosition.toInt

theorem fullFillSafe_of_checkAdded {limits : RiskLimits} {manager : RiskManager}
    (configured : Configured limits manager) {side : Side} {qty : UInt32}
    (passes : manager.checkAdded side qty = .OK) : FullFillSafe limits manager side qty := by
  intro fits
  have bound := natAbs_le_of_checkAdded passes fits
  rw [configured.maxPosition] at bound
  exact bound

/-- The whole of what is stored for an open order still works: no fill has taken any of it. -/
def Unfilled (manager : RiskManager) (id : UInt64) (stored : OpenOrderInfo) : Prop :=
  manager.exposureTracker.remaining id = stored.qty.toNat

/-- A quantity that passes on its own is never refused for the position limit as a new order. -/
theorem checkNewOrder_ne_position_limit {manager : RiskManager} {side : Side} {qty : UInt32}
    (passes : manager.checkAdded side qty = .OK) (id : UInt64) (price : Int32) :
    manager.checkNewOrder id side qty price ≠ .POSITION_LIMIT_EXCEEDED := by
  rw [checkNewOrder, passes]
  split
  · simp
  split
  · simp
  split
  · simp
  split
  · simp
  split <;> simp

/-- In every reachable state, a request that passes its check is safe in what it was checked
with: a new order and a side flip with their whole quantity, a same-side modify of an order
without fills with its growth alone.  One that does not grow passes whatever the position is. -/
theorem accepted_requests_position_safe {limits : RiskLimits} {manager : RiskManager}
    (reachable : Reachable limits manager) (id : UInt64) (side : Side) (qty : UInt32)
    (price : Int32) :
    (manager.checkNewOrder id side qty price = .OK → FullFillSafe limits manager side qty) ∧
      ∀ existing, manager.openOrders.lookup id = some existing →
        (side ≠ existing.side → manager.checkModifyOrder id side qty price = .OK →
            FullFillSafe limits manager side qty ∧
              ∀ other, manager.checkNewOrder other side qty price ≠ .POSITION_LIMIT_EXCEEDED) ∧
          (side = existing.side → manager.Unfilled id existing → existing.qty < qty →
            manager.checkModifyOrder id side qty price = .OK →
            FullFillSafe limits manager side (qty - existing.qty)) ∧
          (side = existing.side → manager.Unfilled id existing → qty ≤ existing.qty →
            (manager.checkModifyOrder id side qty price = .OK ↔
              manager.isShutdown = false ∧ limits.minValidPrice ≤ price ∧
                qty ≤ limits.maxQtyPerOrder)) := by
  have configured := reachable.configured
  constructor
  · intro passes
    obtain ⟨-, -, -, added, -⟩ := checkNewOrder_OK passes
    exact fullFillSafe_of_checkAdded configured added
  intro existing found
  refine ⟨?_, ?_, ?_⟩
  · intro flips passes
    obtain ⟨-, -, -, -, flip⟩ := checkModifyOrder_OK found passes
    exact ⟨fullFillSafe_of_checkAdded configured (flip flips),
      fun other => checkNewOrder_ne_position_limit (flip flips) other price⟩
  · intro same _ grows passes
    obtain ⟨-, -, -, growth, -⟩ := checkModifyOrder_OK found passes
    exact fullFillSafe_of_checkAdded configured (growth same grows)
  · intro same _ shrinks
    constructor
    · intro passes
      obtain ⟨running, priced, small, -, -⟩ := checkModifyOrder_OK found passes
      rw [configured.own] at priced small
      exact ⟨running, priced, small⟩
    · rintro ⟨running, priced, small⟩
      rw [checkModifyOrder, found, if_neg (by simp [running])]
      simp only [configured.own]
      rw [if_neg (Int32.not_lt.mpr priced), if_neg (UInt32.not_lt.mpr small), if_pos same,
        if_neg (UInt32.not_lt.mpr shrinks)]

/-- The default limits with a position of at most 20. -/
def smallPosition : RiskLimits :=
  { RiskLimits.default with maxPosition := 20 }

/-- A buy of 15 rests, and another of 10 is filled. -/
def longTenBuyFifteen : List RiskCall :=
  [acknowledged (.sendNewOrder 1 3 .BUY 15 50), acknowledged (.sendNewOrder 2 3 .BUY 10 50),
   acknowledged (.onFill 2 10 50 true)]

/-- After that a sell of 30 passes both as a new order and as a flip of the resting buy, which
has had no fills and may grow by one. -/
theorem accepted_requests_position_safe_longTenBuyFifteen :
    FullFillSafe smallPosition (longTenBuyFifteen.foldl next (new smallPosition 0)) .SELL 30 ∧
      (∀ other, (longTenBuyFifteen.foldl next (new smallPosition 0)).checkNewOrder other .SELL 30
        50 ≠ .POSITION_LIMIT_EXCEEDED) ∧
      FullFillSafe smallPosition (longTenBuyFifteen.foldl next (new smallPosition 0)) .BUY
        (16 - 15) := by
  have reachable : Reachable smallPosition (longTenBuyFifteen.foldl next (new smallPosition 0)) :=
    ⟨0, longTenBuyFifteen, rfl⟩
  have resting : (longTenBuyFifteen.foldl next (new smallPosition 0)).openOrders.lookup 1 =
      some ⟨3, .BUY, 15, 50⟩ := by
    decide +kernel
  refine ⟨?_, ?_, ?_⟩
  · exact (accepted_requests_position_safe reachable 3 .SELL 30 50).1 (by decide +kernel)
  · exact (((accepted_requests_position_safe reachable 1 .SELL 30 50).2 _ resting).1 (by decide)
      (by decide +kernel)).2
  · have unfilled : (longTenBuyFifteen.foldl next (new smallPosition 0)).Unfilled 1
        ⟨3, .BUY, 15, 50⟩ := by
      rw [Unfilled]
      decide +kernel
    exact ((accepted_requests_position_safe reachable 1 .BUY 16 50).2 _ resting).2.1 rfl unfilled
      (by decide) (by decide +kernel)

/-- No limit but that on the position. -/
def wideOpen : RiskLimits :=
  { smallPosition with maxQtyPerOrder := -1, maxQtyPerSide := -1, maxExposure := -1 }

/-- At 10 long with a limit of 20, the resting buy of 15 may grow to 16, though its fill leaves
26 and a new buy of 16 is refused.  Where the position wraps, even a new order is accepted. -/
theorem accepted_requests_beyond_position_limit :
    Reachable smallPosition (longTenBuyFifteen.foldl next (new smallPosition 0)) ∧
      (longTenBuyFifteen.foldl next (new smallPosition 0)).checkModifyOrder 1 .BUY 16 50 = .OK ∧
      exactMove (longTenBuyFifteen.foldl next (new smallPosition 0)).getPosition.toInt .BUY 16 =
        26 ∧
      (longTenBuyFifteen.foldl next (new smallPosition 0)).checkNewOrder 3 .BUY 16 50 =
        .POSITION_LIMIT_EXCEEDED ∧
      (new wideOpen 0).checkNewOrder 1 .BUY 4294967295 50 = .OK ∧
      exactMove (new wideOpen 0).getPosition.toInt .BUY 4294967295 = 4294967295 := by
  refine ⟨⟨0, longTenBuyFifteen, rfl⟩, ?_, ?_, ?_, ?_, ?_⟩ <;> decide +kernel

end RiskManager

end HftAlgorithms
