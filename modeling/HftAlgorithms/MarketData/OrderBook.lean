/-
Module: HftAlgorithms.MarketData.OrderBook
Purpose: The order book of `orderbook.cpp`: a map of resting orders and, beside
  it, the aggregated quantity of every price level of each side.
Trusted boundary: none
Main exports: OrderInfo, OrderBook, BookError, OrderBook.handleNewOrder,
  OrderBook.handleDeleteOrder, OrderBook.handleModifyOrder, OrderBook.handleTrade,
  OrderBook.handle, OrderBook.getBestBidPrice, OrderBook.getBestAskPrice
-/
import HftAlgorithms.Lib.FiniteMap
import HftAlgorithms.Lib.FixedWidth
import HftAlgorithms.MarketData.Messages
import Mathlib.Data.Finset.Max

namespace HftAlgorithms

/-- `OrderInfo`: what the book keeps about a resting order. -/
structure OrderInfo where
  price : Int32
  quantity : UInt32
  side : Side
  symbol : UInt32
deriving DecidableEq, Repr, Inhabited

/-- The entry a new order is stored under. -/
def NewOrder.info (msg : NewOrder) : OrderInfo :=
  { price := msg.price, quantity := msg.quantity, side := msg.side, symbol := msg.symbol }

/-- The entry of a modified order: everything but the symbol comes from the message. -/
def ModifyOrder.change (msg : ModifyOrder) (info : OrderInfo) : OrderInfo :=
  { info with price := msg.price, quantity := msg.quantity, side := msg.side }

/-- The entry of a partly traded order. -/
def OrderInfo.reduced (info : OrderInfo) (quantity : UInt32) : OrderInfo :=
  { info with quantity := info.quantity - quantity }

/-- The two level maps.  `orderbook.cpp` asks only whether a side is `BUY`. -/
inductive BookSide where
  | bid
  | ask
deriving DecidableEq, Repr, Inhabited

/-- Any side other than `BUY` goes to the ask map. -/
def Side.bookSide : Side → BookSide
  | .BUY => .bid
  | _ => .ask

/-- One side's price levels (`bids_` or `asks_`). -/
abbrev Levels := FiniteMap Int32 UInt32

structure OrderBook where
  symbol : UInt32
  lastSeqNum : UInt32
  orders : FiniteMap UInt64 OrderInfo
  bids : Levels
  asks : Levels
deriving DecidableEq

/-- The lines a handler writes to `std::cerr`, with the values they print. -/
inductive BookError where
  | invalidSide (orderId : UInt64)
  | duplicateOrderId (orderId : UInt64)
  | zeroQuantity
  | negativePrice
  | crossedAfterNewOrder
  | modifyingNonExistent (orderId : UInt64)
  | crossedAfterModify
  | tradeExceedsOrder (traded resting : UInt32)
  | removingMore (side : BookSide) (quantity resting : UInt32) (price : Int32)
deriving DecidableEq, Repr

/-! ### Price levels -/

/-- `levels[price] += quantity`, which starts a missing level at zero. -/
def addToLevel (levels : Levels) (price : Int32) (quantity : UInt32) : Levels :=
  levels.insert price ((levels.lookup price).getD 0 + quantity)

/-- Take `quantity` off a level.  A level that would go below zero is dropped whole and
its quantity reported; a level that reaches zero is dropped. -/
def takeFromLevel (levels : Levels) (price : Int32) (quantity : UInt32) :
    Levels × Option UInt32 :=
  match levels.lookup price with
  | none => (levels, none)
  | some resting =>
      if resting < quantity then (levels.erase price, some resting)
      else if resting - quantity = 0 then (levels.erase price, none)
      else (levels.insert price (resting - quantity), none)

namespace OrderBook

/-- The constructor `OrderBook(symbol_id)`. -/
def empty (symbol : UInt32) : OrderBook :=
  { symbol := symbol, lastSeqNum := 0, orders := ∅, bids := ∅, asks := ∅ }

/-- The level map of one side. -/
def levels (book : OrderBook) : BookSide → Levels
  | .bid => book.bids
  | .ask => book.asks

/-- Replace the level map of one side. -/
def setLevels (book : OrderBook) (side : BookSide) (levels : Levels) : OrderBook :=
  match side with
  | .bid => { book with bids := levels }
  | .ask => { book with asks := levels }

section SetLevels

variable (book : OrderBook) (side : BookSide) (replacement : Levels)

@[simp] theorem orders_setLevels : (book.setLevels side replacement).orders = book.orders := by
  cases side <;> rfl

@[simp] theorem symbol_setLevels : (book.setLevels side replacement).symbol = book.symbol := by
  cases side <;> rfl

theorem levels_setLevels (other : BookSide) :
    (book.setLevels side replacement).levels other =
      if other = side then replacement else book.levels other := by
  cases side <;> cases other <;> rfl

end SetLevels

def addToPriceLevel (book : OrderBook) (side : Side) (price : Int32) (quantity : UInt32) :
    OrderBook :=
  book.setLevels side.bookSide (addToLevel (book.levels side.bookSide) price quantity)

def removeFromPriceLevel (book : OrderBook) (side : Side) (price : Int32) (quantity : UInt32) :
    OrderBook × List BookError :=
  let taken := takeFromLevel (book.levels side.bookSide) price quantity
  (book.setLevels side.bookSide taken.1,
    taken.2.toList.map fun resting => .removingMore side.bookSide quantity resting price)

/-! ### Top of book -/

/-- `bids_.begin()->first`, or 0 for an empty side. -/
def getBestBidPrice (book : OrderBook) : Int32 :=
  book.bids.keys.max.unbotD 0

/-- `bids_.begin()->second`, or 0 for an empty side. -/
def getBestBidQty (book : OrderBook) : UInt32 :=
  if book.bids.keys = ∅ then 0 else (book.bids.lookup book.getBestBidPrice).getD 0

/-- `asks_.begin()->first`, or 0 for an empty side. -/
def getBestAskPrice (book : OrderBook) : Int32 :=
  book.asks.keys.min.untopD 0

/-- `asks_.begin()->second`, or 0 for an empty side. -/
def getBestAskQty (book : OrderBook) : UInt32 :=
  if book.asks.keys = ∅ then 0 else (book.asks.lookup book.getBestAskPrice).getD 0

def isCrossed (book : OrderBook) : Bool :=
  if book.bids.keys = ∅ ∨ book.asks.keys = ∅ then false
  else book.getBestBidPrice ≥ book.getBestAskPrice

/-! ### Handlers

Each handler returns the new book and what it wrote to `std::cerr`. -/

/-- `orders_[id] = info` followed by `add_to_price_level`. -/
def storeOrder (book : OrderBook) (id : UInt64) (info : OrderInfo) : OrderBook :=
  { book with orders := book.orders.insert id info }.addToPriceLevel
    info.side info.price info.quantity

/-- `remove_from_price_level` of all that is left of an order, followed by its erasure. -/
def dropOrder (book : OrderBook) (id : UInt64) (info : OrderInfo) : OrderBook × List BookError :=
  let removed := book.removeFromPriceLevel info.side info.price info.quantity
  ({ removed.1 with orders := removed.1.orders.erase id }, removed.2)

def handleNewOrder (book : OrderBook) (msg : NewOrder) : OrderBook × List BookError :=
  if msg.header.msgType ≠ .NEW_ORDER then (book, [])
  else if msg.side ≠ .BUY ∧ msg.side ≠ .SELL then (book, [.invalidSide msg.orderId])
  else if (book.orders.lookup msg.orderId).isSome then (book, [.duplicateOrderId msg.orderId])
  else if msg.quantity = 0 then (book, [.zeroQuantity])
  else if msg.price < 0 then (book, [.negativePrice])
  else
    let updated := { book.storeOrder msg.orderId msg.info with lastSeqNum := msg.header.seqNum }
    (updated, if updated.isCrossed then [.crossedAfterNewOrder] else [])

def handleDeleteOrder (book : OrderBook) (msg : DeleteOrder) : OrderBook × List BookError :=
  match book.orders.lookup msg.orderId with
  | none => (book, [])
  | some info =>
      if info.symbol ≠ book.symbol then (book, [])
      else
        let dropped := book.dropOrder msg.orderId info
        ({ dropped.1 with lastSeqNum := msg.header.seqNum }, dropped.2)

def handleModifyOrder (book : OrderBook) (msg : ModifyOrder) : OrderBook × List BookError :=
  match book.orders.lookup msg.orderId with
  | none => (book, [.modifyingNonExistent msg.orderId])
  | some info =>
      if info.symbol ≠ book.symbol then (book, [])
      else
        let removed := book.removeFromPriceLevel info.side info.price info.quantity
        let updated :=
          { removed.1.storeOrder msg.orderId (msg.change info) with
            lastSeqNum := msg.header.seqNum }
        (updated, removed.2 ++ if updated.isCrossed then [.crossedAfterModify] else [])

/-- A trade larger than the order drops the order and leaves `last_seq_num_` alone. -/
def handleTrade (book : OrderBook) (msg : Trade) : OrderBook × List BookError :=
  match book.orders.lookup msg.orderId with
  | none => (book, [])
  | some info =>
      if info.symbol ≠ book.symbol then (book, [])
      else if msg.quantity > info.quantity then
        let dropped := book.dropOrder msg.orderId info
        (dropped.1, .tradeExceedsOrder msg.quantity info.quantity :: dropped.2)
      else
        let removed := book.removeFromPriceLevel info.side info.price msg.quantity
        ({ removed.1 with
            orders :=
              if info.quantity - msg.quantity = 0 then removed.1.orders.erase msg.orderId
              else removed.1.orders.insert msg.orderId (info.reduced msg.quantity)
            lastSeqNum := msg.header.seqNum }, removed.2)

def handle (book : OrderBook) : BookMsg → OrderBook × List BookError
  | .newOrder msg => book.handleNewOrder msg
  | .deleteOrder msg => book.handleDeleteOrder msg
  | .modifyOrder msg => book.handleModifyOrder msg
  | .trade msg => book.handleTrade msg

/-- The book after one message. -/
def next (book : OrderBook) (msg : BookMsg) : OrderBook := (book.handle msg).1

/-- What one message makes the book write to `std::cerr`. -/
def errors (book : OrderBook) (msg : BookMsg) : List BookError := (book.handle msg).2

end OrderBook

end HftAlgorithms
