/-
Module: HftAlgorithms.Risk.RiskManager
Purpose: The risk manager of `risk_manager.cpp`: the pure checks, the order-entry
  pipeline over a sender, the exchange callbacks and the shutdown, as one step
  function on the manager's state.
Trusted boundary: none
Main exports: RiskLimits, RiskResult, RiskManager, SenderRequest, CallEnv,
  RiskManager.checkNewOrder, RiskManager.checkModifyOrder, RiskOp, RiskCall,
  RiskManager.next, RiskManager.requests
-/
import HftAlgorithms.Risk.Trackers

namespace HftAlgorithms

structure RiskLimits where
  maxQtyPerOrder : UInt32
  maxQtyPerSide : UInt32
  maxExposure : UInt32
  maxPosition : Int32
  maxOrdersPerSecond : UInt32
  maxOrdersPerSeqNum : UInt32
  maxUnackedOrders : UInt32
  minPnl : ℚ
  minValidPrice : Int32
deriving DecidableEq

/-- The member initializers of `RiskLimits`. -/
def RiskLimits.default : RiskLimits :=
  { maxQtyPerOrder := 100, maxQtyPerSide := 500, maxExposure := 1000, maxPosition := 200,
    maxOrdersPerSecond := 10, maxOrdersPerSeqNum := 5, maxUnackedOrders := 5, minPnl := -10000,
    minValidPrice := 1 }

inductive RiskResult where
  | OK
  | SYSTEM_SHUTDOWN
  | INVALID_PRICE
  | QTY_PER_ORDER_EXCEEDED
  | QTY_PER_SIDE_EXCEEDED
  | EXPOSURE_EXCEEDED
  | POSITION_LIMIT_WOULD_INCREASE
  | POSITION_LIMIT_EXCEEDED
  | RATE_LIMIT_PER_SECOND
  | RATE_LIMIT_PER_SEQ_NUM
  | UNACKED_LIMIT_EXCEEDED
  | DUPLICATE_ORDER_ID
  | UNKNOWN_ORDER_ID
deriving DecidableEq, Repr, Inhabited

structure OpenOrderInfo where
  symbol : UInt32
  side : Side
  qty : UInt32
  price : Int32
deriving DecidableEq, Repr, Inhabited

structure RiskManager where
  limits : RiskLimits
  positionTracker : PositionTracker
  exposureTracker : ExposureTracker
  pnlTracker : PnlTracker
  openOrders : FiniteMap UInt64 OpenOrderInfo
  ordersThisSecond : UInt32
  /-- A `steady_clock` reading, in nanoseconds. -/
  secondWindowStart : Int
  ordersThisSeqNum : UInt32
  lastSeqNum : UInt32
  unackedOrders : UInt32
  isShutdown : Bool
  inShutdown : Bool

/-- What the manager asks of its `IOrderSender`. -/
inductive SenderRequest where
  | newOrder (id : UInt64) (symbol : UInt32) (side : Side) (qty : UInt32) (price : Int32)
  | deleteOrder (id : UInt64)
  | modifyOrder (id : UInt64) (side : Side) (qty : UInt32) (price : Int32)
deriving DecidableEq, Repr

/-- An iteration order of `open_orders_`: every key, once. -/
structure KeyOrder where
  keys : FiniteMap UInt64 OpenOrderInfo → List UInt64
  nodup : ∀ map, (keys map).Nodup
  mem_keys : ∀ map id, id ∈ keys map ↔ (map.lookup id).isSome

/-- Increasing ids are one such order. -/
def KeyOrder.ascending : KeyOrder :=
  { keys := FiniteMap.sortedKeys
    nodup := FiniteMap.nodup_sortedKeys
    mem_keys := FiniteMap.mem_sortedKeys }

instance inhabitedKeyOrder : Inhabited KeyOrder := ⟨KeyOrder.ascending⟩

/-- What one call meets outside the manager: the clock, the sender's answers and the order in
which the hash map lists its keys.  The sender does not call back into the manager. -/
structure CallEnv where
  now : Int
  answer : SenderRequest → Bool
  keyOrder : KeyOrder

/-- What a call leaves behind. -/
structure Outcome where
  manager : RiskManager
  requests : List SenderRequest

namespace RiskManager

def new (limits : RiskLimits) (now : Int) : RiskManager :=
  { limits := limits
    positionTracker := .new limits.maxPosition
    exposureTracker := .new limits.maxExposure
    pnlTracker := .new limits.minPnl
    openOrders := ∅
    ordersThisSecond := 0
    secondWindowStart := now
    ordersThisSeqNum := 0
    lastSeqNum := 0
    unackedOrders := 0
    isShutdown := false
    inShutdown := false }

def getPosition (manager : RiskManager) : Int32 := manager.positionTracker.position

def getTotalPnl (manager : RiskManager) : ℚ := manager.pnlTracker.getTotalPnl

/-! ### Rate limits -/

/-- `duration_cast` truncates toward zero. -/
def refreshRateWindow (manager : RiskManager) (now : Int) : RiskManager :=
  if (now - manager.secondWindowStart).tdiv 1000000 ≥ 1000 then
    { manager with ordersThisSecond := 0, secondWindowStart := now }
  else manager

def checkRateLimits (manager : RiskManager) : RiskResult :=
  if manager.ordersThisSecond ≥ manager.limits.maxOrdersPerSecond then .RATE_LIMIT_PER_SECOND
  else if manager.ordersThisSeqNum ≥ manager.limits.maxOrdersPerSeqNum then
    .RATE_LIMIT_PER_SEQ_NUM
  else if manager.unackedOrders ≥ manager.limits.maxUnackedOrders then .UNACKED_LIMIT_EXCEEDED
  else .OK

/-! ### Pure checks -/

def wouldIncreaseAbsPosition (manager : RiskManager) (side : Side) : Bool :=
  if manager.getPosition = 0 then false
  else (side = .BUY ∧ manager.getPosition > 0) ∨ (side = .SELL ∧ manager.getPosition < 0)

/-- The four checks of a quantity added to one side, written out three times in the source: for
a new order, for the growth of a same-side modify and for a side flip. -/
def checkAdded (manager : RiskManager) (side : Side) (qty : UInt32) : RiskResult :=
  let sideOutstanding :=
    if side = .BUY then manager.exposureTracker.outstandingBuyQty
    else manager.exposureTracker.outstandingSellQty
  if sideOutstanding + qty > manager.limits.maxQtyPerSide then .QTY_PER_SIDE_EXCEEDED
  else if manager.exposureTracker.wouldExceedExposure manager.positionTracker side qty then
    .EXPOSURE_EXCEEDED
  else if manager.positionTracker.atLimit ∧ manager.wouldIncreaseAbsPosition side then
    .POSITION_LIMIT_WOULD_INCREASE
  else if manager.positionTracker.wouldExceedLimit side qty then .POSITION_LIMIT_EXCEEDED
  else .OK

def checkNewOrder (manager : RiskManager) (id : UInt64) (side : Side) (qty : UInt32)
    (price : Int32) : RiskResult :=
  if manager.isShutdown then .SYSTEM_SHUTDOWN
  else if price < manager.limits.minValidPrice then .INVALID_PRICE
  else if qty > manager.limits.maxQtyPerOrder then .QTY_PER_ORDER_EXCEEDED
  else if manager.checkAdded side qty ≠ .OK then manager.checkAdded side qty
  else if (manager.openOrders.lookup id).isSome then .DUPLICATE_ORDER_ID
  else .OK

def checkModifyOrder (manager : RiskManager) (id : UInt64) (newSide : Side) (newQty : UInt32)
    (newPrice : Int32) : RiskResult :=
  if manager.isShutdown then .SYSTEM_SHUTDOWN
  else
    match manager.openOrders.lookup id with
    | none => .UNKNOWN_ORDER_ID
    | some existing =>
        if newPrice < manager.limits.minValidPrice then .INVALID_PRICE
        else if newQty > manager.limits.maxQtyPerOrder then .QTY_PER_ORDER_EXCEEDED
        else if newSide = existing.side then
          if newQty > existing.qty then manager.checkAdded newSide (newQty - existing.qty)
          else .OK
        else manager.checkAdded newSide newQty

/-! ### Changes that several operations make -/

/-- `on_order_removed` on the exposure tracker alone. -/
def unregister (manager : RiskManager) (id : UInt64) : RiskManager :=
  { manager with exposureTracker := manager.exposureTracker.onOrderRemoved id }

/-- `on_order_removed` on the exposure tracker and the erasure of the open order. -/
def forget (manager : RiskManager) (id : UInt64) : RiskManager :=
  { manager.unregister id with openOrders := manager.openOrders.erase id }

/-- The counters that go up before a request is forwarded. -/
def countRequest (manager : RiskManager) : RiskManager :=
  { manager with
    unackedOrders := manager.unackedOrders + 1
    ordersThisSecond := manager.ordersThisSecond + 1
    ordersThisSeqNum := manager.ordersThisSeqNum + 1 }

/-- The answer to a request has come. -/
def countAnswer (manager : RiskManager) : RiskManager :=
  { manager with unackedOrders := manager.unackedOrders - 1 }

/-- The registration of an acknowledged order. -/
def register (manager : RiskManager) (id : UInt64) (info : OpenOrderInfo) : RiskManager :=
  { manager with
    exposureTracker := manager.exposureTracker.onOrderSent id info.side info.qty info.price
    openOrders := manager.openOrders.insert id info }

/-- An acknowledged modify: the old registration goes and a new one is made. -/
def replace (manager : RiskManager) (id : UInt64) (info : OpenOrderInfo) : RiskManager :=
  (manager.unregister id).register id info

/-! ### Cancelling and shutting down -/

def cancelOne (env : CallEnv) (manager : RiskManager) (id : UInt64) : RiskManager :=
  if env.answer (.deleteOrder id) then manager.forget id else manager

/-- The keys are copied before the first delete. -/
def cancelAllOpenOrders (manager : RiskManager) (env : CallEnv) : Outcome :=
  let ids := env.keyOrder.keys manager.openOrders
  ⟨ids.foldl (cancelOne env) manager, ids.map .deleteOrder⟩

def pnlBreach (manager : RiskManager) : Bool := manager.pnlTracker.belowMinPnl

def posBreach (manager : RiskManager) : Bool :=
  manager.getPosition.abs > manager.limits.maxPosition

def checkAndShutdownIfNeeded (manager : RiskManager) (env : CallEnv) : Outcome :=
  if manager.isShutdown ∨ manager.inShutdown then ⟨manager, []⟩
  else if ¬ manager.pnlBreach ∧ ¬ manager.posBreach then ⟨manager, []⟩
  else
    let cancelled :=
      { manager with isShutdown := true, inShutdown := true }.cancelAllOpenOrders env
    ⟨{ cancelled.manager with inShutdown := false }, cancelled.requests⟩

/-! ### Order entry

The state before the final `check_and_shutdown_if_needed` of an operation has a name of its own,
`after…`; the operation is that state followed by the check. -/

/-- The check at the end of an operation that has already sent `sent`. -/
def settle (manager : RiskManager) (env : CallEnv) (sent : List SenderRequest) : Outcome :=
  let settled := manager.checkAndShutdownIfNeeded env
  ⟨settled.manager, sent ++ settled.requests⟩

/-- Both checks of `send_new_order` pass. -/
def admitsNewOrder (manager : RiskManager) (id : UInt64) (side : Side) (qty : UInt32)
    (price : Int32) : Bool :=
  manager.checkNewOrder id side qty price = .OK ∧ manager.checkRateLimits = .OK

/-- Both checks of `modify_order` pass. -/
def admitsModify (manager : RiskManager) (id : UInt64) (side : Side) (qty : UInt32)
    (price : Int32) : Bool :=
  manager.checkModifyOrder id side qty price = .OK ∧ manager.checkRateLimits = .OK

def afterNewOrder (manager : RiskManager) (ok : Bool) (id : UInt64) (symbol : UInt32) (side : Side)
    (qty : UInt32) (price : Int32) : RiskManager :=
  let answered := manager.countRequest.countAnswer
  if ok then answered.register id ⟨symbol, side, qty, price⟩ else answered

def sendNewOrder (manager : RiskManager) (env : CallEnv) (id : UInt64) (symbol : UInt32)
    (side : Side) (qty : UInt32) (price : Int32) : Outcome × Bool :=
  let manager := manager.refreshRateWindow env.now
  if manager.admitsNewOrder id side qty price then
    let request := SenderRequest.newOrder id symbol side qty price
    let ok := env.answer request
    ((manager.afterNewOrder ok id symbol side qty price).settle env [request], ok)
  else (⟨manager, []⟩, false)

def afterModify (manager : RiskManager) (ok : Bool) (id : UInt64) (side : Side) (qty : UInt32)
    (price : Int32) : RiskManager :=
  let answered := manager.countRequest.countAnswer
  let symbol := ((manager.openOrders.lookup id).map OpenOrderInfo.symbol).getD 0
  if ok then answered.replace id ⟨symbol, side, qty, price⟩ else answered

def modifyOrder (manager : RiskManager) (env : CallEnv) (id : UInt64) (side : Side) (qty : UInt32)
    (price : Int32) : Outcome × Bool :=
  let manager := manager.refreshRateWindow env.now
  if manager.admitsModify id side qty price then
    let request := SenderRequest.modifyOrder id side qty price
    let ok := env.answer request
    ((manager.afterModify ok id side qty price).settle env [request], ok)
  else (⟨manager, []⟩, false)

/-- Deletes are neither checked nor counted. -/
def deleteOrder (manager : RiskManager) (env : CallEnv) (id : UInt64) : Outcome × Bool :=
  let request := SenderRequest.deleteOrder id
  let ok := env.answer request
  (⟨if ok then manager.forget id else manager, [request]⟩, ok)

/-! ### Exchange callbacks and market data -/

/-- The three trackers book the fill; only a closing fill ends the open order. -/
def afterFill (manager : RiskManager) (id : UInt64) (side : Side) (qty : UInt32) (price : Int32)
    (closed : Bool) : RiskManager :=
  { manager with
    positionTracker := manager.positionTracker.onFill side qty
    pnlTracker := manager.pnlTracker.onFill side qty price
    exposureTracker := manager.exposureTracker.onFill id qty
    openOrders := if closed then manager.openOrders.erase id else manager.openOrders }

def onFill (manager : RiskManager) (env : CallEnv) (id : UInt64) (qty : UInt32) (price : Int32)
    (closed : Bool) : Outcome :=
  match manager.openOrders.lookup id with
  | none => ⟨manager, []⟩
  | some info => (manager.afterFill id info.side qty price closed).settle env []

def onReject (manager : RiskManager) (id : UInt64) : RiskManager := manager.forget id

def onClose (manager : RiskManager) (id : UInt64) : RiskManager := manager.forget id

def updateMarkPrice (manager : RiskManager) (markPrice : Int32) : RiskManager :=
  { manager with pnlTracker := manager.pnlTracker.updateMarkPrice markPrice }

def onSeqNumUpdate (manager : RiskManager) (seqNum : UInt32) : RiskManager :=
  if seqNum ≠ manager.lastSeqNum then { manager with ordersThisSeqNum := 0, lastSeqNum := seqNum }
  else manager

end RiskManager

/-! ### Runs -/

/-- The public operations, with their arguments. -/
inductive RiskOp where
  | sendNewOrder (id : UInt64) (symbol : UInt32) (side : Side) (qty : UInt32) (price : Int32)
  | modifyOrder (id : UInt64) (side : Side) (qty : UInt32) (price : Int32)
  | deleteOrder (id : UInt64)
  | cancelAllOpenOrders
  | onFill (id : UInt64) (qty : UInt32) (price : Int32) (closed : Bool)
  | onReject (id : UInt64)
  | onClose (id : UInt64)
  | updateMarkPrice (markPrice : Int32)
  | onSeqNumUpdate (seqNum : UInt32)
  | checkAndShutdownIfNeeded
deriving DecidableEq, Repr

/-- One call in a run. -/
structure RiskCall where
  op : RiskOp
  env : CallEnv

namespace RiskManager

def perform (manager : RiskManager) (call : RiskCall) : Outcome :=
  match call.op with
  | .sendNewOrder id symbol side qty price =>
      (manager.sendNewOrder call.env id symbol side qty price).1
  | .modifyOrder id side qty price => (manager.modifyOrder call.env id side qty price).1
  | .deleteOrder id => (manager.deleteOrder call.env id).1
  | .cancelAllOpenOrders => manager.cancelAllOpenOrders call.env
  | .onFill id qty price closed => manager.onFill call.env id qty price closed
  | .onReject id => ⟨manager.onReject id, []⟩
  | .onClose id => ⟨manager.onClose id, []⟩
  | .updateMarkPrice markPrice => ⟨manager.updateMarkPrice markPrice, []⟩
  | .onSeqNumUpdate seqNum => ⟨manager.onSeqNumUpdate seqNum, []⟩
  | .checkAndShutdownIfNeeded => manager.checkAndShutdownIfNeeded call.env

/-- The manager after one call. -/
def next (manager : RiskManager) (call : RiskCall) : RiskManager :=
  (manager.perform call).manager

/-- What one call sends, in order. -/
def requests (manager : RiskManager) (call : RiskCall) : List SenderRequest :=
  (manager.perform call).requests

end RiskManager

end HftAlgorithms
