/-
Module: HftAlgorithms.MarketData.SymbolManager
Purpose: The symbol manager of `symbol_manager.cpp`: per symbol an order book, the
  cached top of that book and the bot's position, plus the global realized PnL
  and the file that carries the positions over a restart.
Trusted boundary: none
Main exports: ArbSnapshot, SymbolSlot, SymbolManager, SymbolManager.onNewOrder,
  SymbolManager.resetBook, SymbolManager.snapshot, SymbolManager.onFill,
  SymbolManager.savePositions, SymbolManager.loadPositions, SymbolCall,
  SymbolManager.next, DORM_IDS, symbolIds, symbolList
-/
import HftAlgorithms.MarketData.OrderBook
import HftAlgorithms.MarketData.Position
import Mathlib.Data.Rat.Defs
import Mathlib.Logic.Function.Basic

namespace HftAlgorithms

/-! ### Symbols -/

def SYM_BLUE : UInt32 := 2
def SYM_UNDY : UInt32 := 13

/-- The ten dorms, in the order of `DORM_IDS`. -/
def DORM_IDS : List UInt32 := [3, 4, 5, 6, 7, 8, 9, 10, 11, 12]

/-- The ids that have a slot. -/
def symbolIds : Finset UInt32 := {1, 2, 3, 4, 5, 6, 7, 8, 9, 10, 11, 12, 13}

/-- The same in the order of the loops over them. -/
def symbolList : List UInt32 := [1, 2, 3, 4, 5, 6, 7, 8, 9, 10, 11, 12, 13]

/-! ### Snapshot -/

/-- `ArbSnapshot::DormData` -/
structure DormData where
  bestBidPrice : Int32
  bestAskPrice : Int32
  bestBidQty : UInt32
  bestAskQty : UInt32
  position : Int32
deriving DecidableEq, Repr, Inhabited

/-- One pass over the caches.  `dorms` is indexed as `DORM_IDS`. -/
structure ArbSnapshot where
  dorms : Vector DormData 10
  undyBestBidPrice : Int32
  undyBestAskPrice : Int32
  undyBestBidQty : UInt32
  undyBestAskQty : UInt32
  undyPosition : Int32
  navAsk : Int32
  navBid : Int32
  anyDormAskMissing : Bool
  anyDormBidMissing : Bool

def POSITION_LIMIT : Int32 := 9

/-! ### State -/

/-- `SymbolSlot`: the book of one symbol, its cached top, and the bot's position. -/
structure SymbolSlot where
  book : OrderBook
  bestBidPrice : Int32
  bestBidQty : UInt32
  bestAskPrice : Int32
  bestAskQty : UInt32
  position : Int32

/-- `slots_` holds a slot for the ids 1 to 13 only; the map here is total, and an id outside
`symbolIds` is one for which `slot(id)` is undefined behaviour.  Doubles are exact rationals. -/
structure SymbolManager where
  slots : UInt32 → SymbolSlot
  totalPnl : ℚ
  avgEntryPrice : UInt32 → ℚ

/-- `SymbolSlot(id)` -/
def SymbolSlot.empty (id : UInt32) : SymbolSlot :=
  { book := .empty id, bestBidPrice := 0, bestBidQty := 0, bestAskPrice := 0, bestAskQty := 0,
    position := 0 }

/-- `flush_top_of_book` -/
def SymbolSlot.flushTopOfBook (slot : SymbolSlot) : SymbolSlot :=
  { slot with
    bestBidPrice := slot.book.getBestBidPrice
    bestBidQty := slot.book.getBestBidQty
    bestAskPrice := slot.book.getBestAskPrice
    bestAskQty := slot.book.getBestAskQty }

namespace SymbolManager

def empty : SymbolManager :=
  { slots := SymbolSlot.empty, totalPnl := 0, avgEntryPrice := fun _ => 0 }

def setSlot (manager : SymbolManager) (id : UInt32) (slot : SymbolSlot) : SymbolManager :=
  { manager with slots := Function.update manager.slots id slot }

/-- Let one symbol's book handle a message, then flush its top of book: the body that
`on_new_order`, `on_delete_order`, `on_modify_order` and `on_trade` share. -/
def onBookMsg (manager : SymbolManager) (id : UInt32) (msg : BookMsg) : SymbolManager :=
  let slot := manager.slots id
  manager.setSlot id { slot with book := slot.book.next msg }.flushTopOfBook

def onNewOrder (manager : SymbolManager) (id : UInt32) (msg : NewOrder) : SymbolManager :=
  manager.onBookMsg id (.newOrder msg)

def onDeleteOrder (manager : SymbolManager) (id : UInt32) (msg : DeleteOrder) : SymbolManager :=
  manager.onBookMsg id (.deleteOrder msg)

def onModifyOrder (manager : SymbolManager) (id : UInt32) (msg : ModifyOrder) : SymbolManager :=
  manager.onBookMsg id (.modifyOrder msg)

def onTrade (manager : SymbolManager) (id : UInt32) (msg : Trade) : SymbolManager :=
  manager.onBookMsg id (.trade msg)

/-- `reset_book`: a fresh book and an empty cache; the position stays. -/
def resetBook (manager : SymbolManager) (id : UInt32) : SymbolManager :=
  manager.setSlot id { SymbolSlot.empty id with position := (manager.slots id).position }

def getPosition (manager : SymbolManager) (id : UInt32) : Int32 :=
  (manager.slots id).position

/-! ### Taking a snapshot -/

/-- What the loop of `snapshot` reads of one slot. -/
def dormData (manager : SymbolManager) (id : UInt32) : DormData :=
  let slot := manager.slots id
  { bestBidPrice := slot.bestBidPrice
    bestAskPrice := slot.bestAskPrice
    bestBidQty := slot.bestBidQty
    bestAskQty := slot.bestAskQty
    position := slot.position }

/-- One turn of the loop for one side: a price of 0 sets the missing flag, any other price is
added to the NAV. -/
def addToNav (nav : Int32 × Bool) (price : Int32) : Int32 × Bool :=
  if price = 0 then (nav.1, true) else (nav.1 + price, nav.2)

def snapshot (manager : SymbolManager) : ArbSnapshot :=
  let dorms := DORM_IDS.map manager.dormData
  let ask := (dorms.map DormData.bestAskPrice).foldl addToNav (0, false)
  let bid := (dorms.map DormData.bestBidPrice).foldl addToNav (0, false)
  let undy := manager.slots SYM_UNDY
  { dorms := ⟨dorms.toArray, rfl⟩
    undyBestBidPrice := undy.bestBidPrice
    undyBestAskPrice := undy.bestAskPrice
    undyBestBidQty := undy.bestBidQty
    undyBestAskQty := undy.bestAskQty
    undyPosition := undy.position
    navAsk := ask.1
    navBid := bid.1
    anyDormAskMissing := ask.2
    anyDormBidMissing := bid.2 }

/-! ### Fills -/

/-- The average entry price after a buy.  `price * qty` is a 32-bit unsigned product. -/
def averagedEntry (average : ℚ) (oldPos : Int32) (qty : UInt32) (price : Int32) : ℚ :=
  let oldVal := average * (max oldPos 0).toInt
  let newQty := oldPos + qty.toInt32
  if newQty > 0 then (oldVal + (price.toUInt32 * qty).toNat) / newQty.toInt else price.toInt

/-- What a fill that reduces the position realizes. -/
def realized (average : ℚ) (oldPos : Int32) (side : Side) (qty : UInt32) (price : Int32) : ℚ :=
  let closingQty := min qty oldPos.abs.toUInt32
  if side = .SELL then (price.toInt - average) * closingQty.toNat
  else (average - price.toInt) * closingQty.toNat

/-- `on_fill`: the average is updated before the realized PnL is computed from it. -/
def onFill (manager : SymbolManager) (id : UInt32) (side : Side) (qty : UInt32) (price : Int32) :
    SymbolManager :=
  let slot := manager.slots id
  let oldPos := slot.position
  let average :=
    if side = .BUY then averagedEntry (manager.avgEntryPrice id) oldPos qty price
    else manager.avgEntryPrice id
  let reducing := (side = .SELL ∧ oldPos > 0) ∨ (side = .BUY ∧ oldPos < 0)
  { slots := Function.update manager.slots id
      { slot with position := movedPosition oldPos side qty }
    avgEntryPrice := Function.update manager.avgEntryPrice id average
    totalPnl :=
      if reducing then manager.totalPnl + realized average oldPos side qty price
      else manager.totalPnl }

/-- A fill moves the position of its own symbol only. -/
theorem getPosition_onFill (manager : SymbolManager) (id : UInt32) (side : Side) (qty : UInt32)
    (price : Int32) (symbol : UInt32) :
    (manager.onFill id side qty price).getPosition symbol =
      if symbol = id then movedPosition (manager.getPosition id) side qty
      else manager.getPosition symbol := by
  by_cases own : symbol = id
  · subst own
    simp [onFill, getPosition]
  · simp [onFill, getPosition, own]

def getTotalPnl (manager : SymbolManager) : ℚ := manager.totalPnl

/-- `PNL_WARN_LEVEL` -/
def pnlNearLimit (manager : SymbolManager) : Bool := manager.getTotalPnl ≤ -4500

/-! ### The positions file

A line of the file is an id and a position in decimal; the file is taken as its lines. -/

/-- `save_positions`: a line for each open position. -/
def savePositions (manager : SymbolManager) : List (UInt32 × Int32) :=
  (symbolList.map fun id => (id, manager.getPosition id)).filter fun line => line.2 ≠ 0

/-- One turn of the loop of `load_positions`. -/
def loadPosition (manager : SymbolManager) (line : UInt32 × Int32) : SymbolManager :=
  manager.setSlot line.1 { manager.slots line.1 with position := line.2 }

/-- `load_positions`, with the lines up to the first that cannot be read; a file that cannot be
opened has none. -/
def loadPositions (manager : SymbolManager) (lines : List (UInt32 × Int32)) : SymbolManager :=
  lines.foldl loadPosition manager

/-- The program is stopped and started again. -/
def restart (manager : SymbolManager) : SymbolManager :=
  SymbolManager.empty.loadPositions manager.savePositions

end SymbolManager

/-! ### Calls -/

/-- The calls that change the manager, with their arguments. -/
inductive SymbolCall where
  | onNewOrder (id : UInt32) (msg : NewOrder)
  | onDeleteOrder (id : UInt32) (msg : DeleteOrder)
  | onModifyOrder (id : UInt32) (msg : ModifyOrder)
  | onTrade (id : UInt32) (msg : Trade)
  | resetBook (id : UInt32)
  | onFill (id : UInt32) (side : Side) (qty : UInt32) (price : Int32)
deriving DecidableEq, Repr

/-- The manager after one call. -/
def SymbolManager.next (manager : SymbolManager) : SymbolCall → SymbolManager
  | .onNewOrder id msg => manager.onNewOrder id msg
  | .onDeleteOrder id msg => manager.onDeleteOrder id msg
  | .onModifyOrder id msg => manager.onModifyOrder id msg
  | .onTrade id msg => manager.onTrade id msg
  | .resetBook id => manager.resetBook id
  | .onFill id side qty price => manager.onFill id side qty price

end HftAlgorithms
