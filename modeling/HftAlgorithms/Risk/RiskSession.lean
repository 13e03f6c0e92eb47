/-
Module: HftAlgorithms.Risk.RiskSession
Purpose: The risk manager with the order-entry client as its sender, and the
  client's callbacks wired to it: a wait calls back into the manager that waits,
  and a fill it reads may make the manager wait again, on what is left to read.
Trusted boundary: none
Main exports: ExchangeMsg, Reading, SessionWorld, RiskSession,
  RiskSession.readLoop, RiskSession.waitForResponse, RiskSession.sendNewOrder,
  SessionOp, RiskSession.next
-/
import HftAlgorithms.OrderEntry.OEClient
import HftAlgorithms.Risk.RiskManager

namespace HftAlgorithms

/-! ### State -/

/-- A response and the side on which the exchange has the order it is about.  The side is not on
the wire: neither the client nor the manager reads it. -/
structure ExchangeMsg where
  response : OeResponse
  side : Side
deriving DecidableEq, Repr, Inhabited

/-- A response that was read, and the manager it was read under. -/
structure Reading where
  manager : RiskManager
  msg : ExchangeMsg

/-- Each reading of the clock, and the iteration order of `open_orders_`. -/
structure SessionWorld where
  clock : Nat → Int
  keyOrder : KeyOrder

/-- The two components, the socket on both sides, how often the clock was read, and a record of
what was read so far. -/
structure RiskSession where
  manager : RiskManager
  client : OEClient
  unread : List ExchangeMsg
  sent : List OeRequest
  clockReads : Nat
  readings : List Reading

namespace RiskSession

/-- Both components when they are wired. -/
def start (limits : RiskLimits) (now : Int) (client : OEClient) (stream : List ExchangeMsg) :
    RiskSession :=
  { manager := .new limits now, client := client, unread := stream, sent := [], clockReads := 0,
    readings := [] }

/-- `++seq_num_` and the request. -/
def write (session : RiskSession) (body : OeRequestHeader → OeRequest) : RiskSession :=
  { session with
    client := session.client.header.1
    sent := session.sent ++ [body session.client.header.2] }

/-! ### What waits

The manager's functions reach the socket through a wait for an id.  Inside a wait that is the loop
with one response less to read, so they take it as an argument. -/

section Wait

variable (wait : UInt64 → RiskSession → RiskSession × Bool) (world : SessionWorld)

/-- `OEClient::delete_order` -/
def requestDelete (session : RiskSession) (id : UInt64) : RiskSession × Bool :=
  wait id (session.write fun header => .deleteOrder header id)

/-- One turn of the loop of `cancel_all_open_orders`. -/
def cancelOne (session : RiskSession) (id : UInt64) : RiskSession :=
  let answered := session.requestDelete wait id
  if answered.2 then { answered.1 with manager := answered.1.manager.forget id } else answered.1

/-- The keys are copied before the first delete. -/
def cancelAllOpenOrders (session : RiskSession) : RiskSession :=
  (world.keyOrder.keys session.manager.openOrders).foldl (cancelOne wait) session

def checkAndShutdownIfNeeded (session : RiskSession) : RiskSession :=
  if session.manager.isShutdown ∨ session.manager.inShutdown then session
  else if ¬ session.manager.pnlBreach ∧ ¬ session.manager.posBreach then session
  else
    let latched := { session.manager with isShutdown := true, inShutdown := true }
    let cancelled := cancelAllOpenOrders wait world { session with manager := latched }
    { cancelled with manager := { cancelled.manager with inShutdown := false } }

/-- The fill callback. -/
def onFill (session : RiskSession) (id : UInt64) (qty : UInt32) (price : Int32) (closed : Bool) :
    RiskSession :=
  match session.manager.openOrders.lookup id with
  | none => session
  | some info =>
      checkAndShutdownIfNeeded wait world
        { session with manager := session.manager.afterFill id info.side qty price closed }

end Wait

/-! ### The reading loop -/

/-- The deadline is compared once, in front of the loop. -/
def unlessLate (world : SessionWorld) (loop : UInt64 → RiskSession → RiskSession × Bool)
    (id : UInt64) (session : RiskSession) : RiskSession × Bool :=
  let timed := { session with clockReads := session.clockReads + 2 }
  if world.clock (session.clockReads + 1) >
      world.clock session.clockReads + OEClient.milliseconds 3000 then (timed, false)
  else loop id timed

/-- The next response is taken off the socket. -/
def readMsg (session : RiskSession) (msg : ExchangeMsg) (rest : List ExchangeMsg) : RiskSession :=
  { session with unread := rest, readings := session.readings ++ [⟨session.manager, msg⟩] }

/-- The inner loop of `wait_for_response`, for as many responses as `fuel`: each turn takes one, so
the number of unread responses is enough.  A wait inside a fill callback goes on from there. -/
def readLoop (world : SessionWorld) : Nat → UInt64 → RiskSession → RiskSession × Bool
  | 0, _, session => (session, false)
  | fuel + 1, expectedOrderId, session =>
      match session.unread with
      | [] => (session, false)
      | msg :: rest =>
          let read := session.readMsg msg rest
          match msg.response with
          | .ack orderId =>
              let acked := { read with client := read.client.receive msg.response }
              if orderId = expectedOrderId then (acked, true)
              else readLoop world fuel expectedOrderId acked
          | .reject orderId rejectReason =>
              let rejected := { read with manager := read.manager.onReject orderId }
              if orderId = expectedOrderId then (rejected, rejectReason = .UKNOWN_ORDER_ID)
              else readLoop world fuel expectedOrderId rejected
          | .fill orderId quantity price flags =>
              let filled := read.onFill (unlessLate world (readLoop world fuel)) world orderId
                quantity price (flags = .CLOSED)
              if flags = .CLOSED then
                ({ filled with client := filled.client.receive msg.response }, true)
              else readLoop world fuel expectedOrderId filled
          | .closed orderId =>
              ({ read with
                client := read.client.receive msg.response
                manager := read.manager.onClose orderId }, true)
          | .other => readLoop world fuel expectedOrderId read

/-- `wait_for_response` -/
def waitForResponse (world : SessionWorld) (id : UInt64) (session : RiskSession) :
    RiskSession × Bool :=
  unlessLate world (readLoop world session.unread.length) id session

/-! ### Operations -/

/-- `refresh_rate_window`, which reads the clock. -/
def refreshRateWindow (world : SessionWorld) (session : RiskSession) : RiskSession :=
  { session with
    manager := session.manager.refreshRateWindow (world.clock session.clockReads)
    clockReads := session.clockReads + 1 }

def sendNewOrder (world : SessionWorld) (session : RiskSession) (id : UInt64) (symbol : UInt32)
    (side : Side) (qty : UInt32) (price : Int32) : RiskSession × Bool :=
  let checked := session.refreshRateWindow world
  if checked.manager.admitsNewOrder id side qty price then
    let counted := { checked with manager := checked.manager.countRequest }
    let answered := waitForResponse world id
      (counted.write fun header => .newOrder header id symbol side qty price 0)
    let uncounted := answered.1.manager.countAnswer
    let registered :=
      if answered.2 then uncounted.register id ⟨symbol, side, qty, price⟩ else uncounted
    (checkAndShutdownIfNeeded (waitForResponse world) world
      { answered.1 with manager := registered }, answered.2)
  else (checked, false)

/-- The old order's symbol is copied before the request is sent. -/
def modifyOrder (world : SessionWorld) (session : RiskSession) (id : UInt64) (side : Side)
    (qty : UInt32) (price : Int32) : RiskSession × Bool :=
  let checked := session.refreshRateWindow world
  if checked.manager.admitsModify id side qty price then
    let symbol := ((checked.manager.openOrders.lookup id).map OpenOrderInfo.symbol).getD 0
    let counted := { checked with manager := checked.manager.countRequest }
    let answered := waitForResponse world id
      (counted.write fun header => .modifyOrder header id side qty price)
    let uncounted := answered.1.manager.countAnswer
    let replaced :=
      if answered.2 then uncounted.replace id ⟨symbol, side, qty, price⟩ else uncounted
    (checkAndShutdownIfNeeded (waitForResponse world) world
      { answered.1 with manager := replaced }, answered.2)
  else (checked, false)

def deleteOrder (world : SessionWorld) (session : RiskSession) (id : UInt64) :
    RiskSession × Bool :=
  let answered := session.requestDelete (waitForResponse world) id
  ({ answered.1 with
    manager := if answered.2 then answered.1.manager.forget id else answered.1.manager },
    answered.2)

end RiskSession

/-! ### Runs -/

/-- What is called from outside; the callbacks are called by the waits only. -/
inductive SessionOp where
  | sendNewOrder (id : UInt64) (symbol : UInt32) (side : Side) (qty : UInt32) (price : Int32)
  | modifyOrder (id : UInt64) (side : Side) (qty : UInt32) (price : Int32)
  | deleteOrder (id : UInt64)
  | cancelAllOpenOrders
  | checkAndShutdownIfNeeded
  | updateMarkPrice (markPrice : Int32)
  | onSeqNumUpdate (seqNum : UInt32)
  | waitForResponse (id : UInt64)
deriving DecidableEq, Repr

namespace RiskSession

def next (world : SessionWorld) (session : RiskSession) : SessionOp → RiskSession
  | .sendNewOrder id symbol side qty price =>
      (session.sendNewOrder world id symbol side qty price).1
  | .modifyOrder id side qty price => (session.modifyOrder world id side qty price).1
  | .deleteOrder id => (session.deleteOrder world id).1
  | .cancelAllOpenOrders => session.cancelAllOpenOrders (waitForResponse world) world
  | .checkAndShutdownIfNeeded => session.checkAndShutdownIfNeeded (waitForResponse world) world
  | .updateMarkPrice markPrice =>
      { session with manager := session.manager.updateMarkPrice markPrice }
  | .onSeqNumUpdate seqNum => { session with manager := session.manager.onSeqNumUpdate seqNum }
  | .waitForResponse id => (waitForResponse world id session).1

end RiskSession

end HftAlgorithms
