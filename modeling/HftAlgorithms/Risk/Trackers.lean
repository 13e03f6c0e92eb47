/-
Module: HftAlgorithms.Risk.Trackers
Purpose: The three ledgers of the risk manager: `position_tracker.cpp`,
  `exposure_tracker.cpp` and `pnl_tracker.cpp`.
Trusted boundary: none
Main exports: PositionTracker, PendingOrder, ExposureTracker, PnlTracker
-/
import HftAlgorithms.Lib.FiniteMap
import HftAlgorithms.MarketData.OrderBook
import HftAlgorithms.MarketData.Position
import Mathlib.Data.Rat.Defs

namespace HftAlgorithms

/-! ### Position -/

structure PositionTracker where
  position : Int32
  maxPosition : Int32
deriving DecidableEq, Repr

namespace PositionTracker

def new (maxPosition : Int32) : PositionTracker :=
  { position := 0, maxPosition := maxPosition }

def onFill (tracker : PositionTracker) (side : Side) (qty : UInt32) : PositionTracker :=
  { tracker with position := movedPosition tracker.position side qty }

def atLimit (tracker : PositionTracker) : Bool :=
  tracker.position.abs ≥ tracker.maxPosition

/-- `std::abs` of the least signed word is that word, so it never exceeds a limit. -/
def wouldExceedLimit (tracker : PositionTracker) (side : Side) (qty : UInt32) : Bool :=
  (movedPosition tracker.position side qty).abs > tracker.maxPosition

end PositionTracker

/-! ### Exposure -/

structure PendingOrder where
  side : Side
  qty : UInt32
  price : Int32
deriving DecidableEq, Repr, Inhabited

/-- The reference to the position tracker is an argument of the functions that read it. -/
structure ExposureTracker where
  maxExposure : UInt32
  outstandingBuyQty : UInt32
  outstandingSellQty : UInt32
  pendingOrders : FiniteMap UInt64 PendingOrder
deriving DecidableEq

namespace ExposureTracker

def new (maxExposure : UInt32) : ExposureTracker :=
  { maxExposure := maxExposure, outstandingBuyQty := 0, outstandingSellQty := 0,
    pendingOrders := ∅ }

/-- `outstanding_buy_qty_` or `outstanding_sell_qty_`. -/
def outstanding (tracker : ExposureTracker) : BookSide → UInt32
  | .bid => tracker.outstandingBuyQty
  | .ask => tracker.outstandingSellQty

def setOutstanding (tracker : ExposureTracker) (side : BookSide) (qty : UInt32) :
    ExposureTracker :=
  match side with
  | .bid => { tracker with outstandingBuyQty := qty }
  | .ask => { tracker with outstandingSellQty := qty }

section SetOutstanding

variable (tracker : ExposureTracker) (side : BookSide) (qty : UInt32)

@[simp] theorem maxExposure_setOutstanding :
    (tracker.setOutstanding side qty).maxExposure = tracker.maxExposure := by
  cases side <;> rfl

@[simp] theorem pendingOrders_setOutstanding :
    (tracker.setOutstanding side qty).pendingOrders = tracker.pendingOrders := by
  cases side <;> rfl

theorem outstanding_setOutstanding (other : BookSide) :
    (tracker.setOutstanding side qty).outstanding other =
      if other = side then qty else tracker.outstanding other := by
  cases side <;> cases other <;> rfl

end SetOutstanding

/-- An id that is already pending is overwritten, and its old quantity stays outstanding. -/
def onOrderSent (tracker : ExposureTracker) (id : UInt64) (side : Side) (qty : UInt32)
    (price : Int32) : ExposureTracker :=
  { tracker.setOutstanding side.bookSide (tracker.outstanding side.bookSide + qty) with
    pendingOrders := tracker.pendingOrders.insert id ⟨side, qty, price⟩ }

def onOrderRemoved (tracker : ExposureTracker) (id : UInt64) : ExposureTracker :=
  match tracker.pendingOrders.lookup id with
  | none => tracker
  | some order =>
      { tracker.setOutstanding order.side.bookSide
          (tracker.outstanding order.side.bookSide - order.qty) with
        pendingOrders := tracker.pendingOrders.erase id }

def onFill (tracker : ExposureTracker) (id : UInt64) (filledQty : UInt32) : ExposureTracker :=
  match tracker.pendingOrders.lookup id with
  | none => tracker
  | some order =>
      { tracker.setOutstanding order.side.bookSide
          (tracker.outstanding order.side.bookSide - filledQty) with
        pendingOrders :=
          if order.qty - filledQty = 0 then tracker.pendingOrders.erase id
          else tracker.pendingOrders.insert id { order with qty := order.qty - filledQty } }

def getBuyExposure (tracker : ExposureTracker) (positions : PositionTracker) : UInt32 :=
  (max 0 positions.position).toUInt32 + tracker.outstandingBuyQty

def getSellExposure (tracker : ExposureTracker) (positions : PositionTracker) : UInt32 :=
  (max 0 (-positions.position)).toUInt32 + tracker.outstandingSellQty

def wouldExceedExposure (tracker : ExposureTracker) (positions : PositionTracker) (side : Side)
    (qty : UInt32) : Bool :=
  if side = .BUY then tracker.getBuyExposure positions + qty > tracker.maxExposure
  else tracker.getSellExposure positions + qty > tracker.maxExposure

end ExposureTracker

/-! ### PnL -/

/-- Doubles are exact rationals. -/
structure PnlTracker where
  minPnl : ℚ
  position : Int32
  buyCost : ℚ
  sellRevenue : ℚ
  markPrice : Int32
deriving DecidableEq

namespace PnlTracker

def new (minPnl : ℚ) : PnlTracker :=
  { minPnl := minPnl, position := 0, buyCost := 0, sellRevenue := 0, markPrice := 0 }

def onFill (tracker : PnlTracker) (side : Side) (qty : UInt32) (price : Int32) : PnlTracker :=
  let traded : ℚ := qty.toNat * price.toInt
  if side = .BUY then
    { tracker with
      position := movedPosition tracker.position side qty, buyCost := tracker.buyCost + traded }
  else
    { tracker with
      position := movedPosition tracker.position side qty
      sellRevenue := tracker.sellRevenue + traded }

def updateMarkPrice (tracker : PnlTracker) (markPrice : Int32) : PnlTracker :=
  { tracker with markPrice := markPrice }

def getRealizedPnl (tracker : PnlTracker) : ℚ :=
  tracker.sellRevenue - tracker.buyCost

/-- The cost is averaged over everything ever bought, or the revenue over everything ever sold,
whatever has been closed since. -/
def getUnrealizedPnl (tracker : PnlTracker) : ℚ :=
  if tracker.position = 0 then 0
  else
    let avgCost : ℚ :=
      if 0 < tracker.position then tracker.buyCost / tracker.position.toInt
      else tracker.sellRevenue / (-tracker.position).toInt
    tracker.position.toInt * (tracker.markPrice.toInt - avgCost)

def getTotalPnl (tracker : PnlTracker) : ℚ :=
  tracker.sellRevenue - tracker.buyCost + tracker.position.toInt * tracker.markPrice.toInt

def belowMinPnl (tracker : PnlTracker) : Bool :=
  tracker.getTotalPnl < tracker.minPnl

end PnlTracker

end HftAlgorithms
