/-
Module: HftAlgorithms.OrderEntry.OEClient
Purpose: The order-entry client of `oe_client.cpp`: the requests it writes, the
  responses it reads while it waits, and the callbacks it fires.
Trusted boundary: none
Main exports: OeResponse, Callback, OEClient, OEClient.receive,
  OEClient.verdict, OEClient.waitForResponse, OEClient.sendNewOrder,
  OEClient.modifyOrder, OEClient.deleteOrder, OEClient.responseLoop,
  OEClient.fillScan, OEClient.waitForFill, OEClient.responseTurns,
  OEClient.fillTurns
-/
import HftAlgorithms.Lib.StreamScan
import HftAlgorithms.MarketData.Messages
import Mathlib.Data.Finset.Erase
import Mathlib.Data.Finset.Insert

namespace HftAlgorithms

open StreamScan

/-! ### Messages -/

/-- `REJECT_REASON`, an unchecked byte on the wire.  The constructors keep the source's
spelling. -/
inductive RejectReason where
  | NONE
  | UNKNOWN_SYMBOL
  | INVALID_ORDER
  | DUPLICATE_ORDER_ID
  | UKNOWN_ORDER_ID
  | INVALID_PRICE
  | INVALID_QUANTITY
  | INVALID_SIDE
  | UNKNOWN_SESSION_ID
  | DUPLICATE_LOGIN
  | unknown (byte : UInt8)
deriving DecidableEq, Repr, Inhabited

/-- `FILL_FLAGS`, an unchecked byte on the wire. -/
inductive FillFlags where
  | NONE
  | PARTIAL_FILL
  | CLOSED
  | unknown (byte : UInt8)
deriving DecidableEq, Repr, Inhabited

/-- A response, with the fields the client reads.  `other` is any other message type. -/
inductive OeResponse where
  | ack (orderId : UInt64)
  | reject (orderId : UInt64) (rejectReason : RejectReason)
  | fill (orderId : UInt64) (quantity : UInt32) (price : Int32) (flags : FillFlags)
  | closed (orderId : UInt64)
  | other
deriving DecidableEq, Repr, Inhabited

/-- What the client fills into the header of a request. -/
structure OeRequestHeader where
  seqNum : UInt32
  clientId : UInt32
  sessionId : UInt64
deriving DecidableEq, Repr, Inhabited

inductive OeRequest where
  | newOrder (header : OeRequestHeader) (orderId : UInt64) (symbol : UInt32) (side : Side)
      (quantity : UInt32) (price : Int32) (flags : UInt8)
  | deleteOrder (header : OeRequestHeader) (orderId : UInt64)
  | modifyOrder (header : OeRequestHeader) (orderId : UInt64) (side : Side) (quantity : UInt32)
      (price : Int32)
deriving DecidableEq, Repr

structure FillEvent where
  orderId : UInt64
  qty : UInt32
  price : Int32
  closed : Bool
deriving DecidableEq, Repr, Inhabited

/-- The calls of `on_fill_cb_`, `on_reject_cb_` and `on_close_cb_`. -/
inductive Callback where
  | onFill (event : FillEvent)
  | onReject (orderId : UInt64)
  | onClose (orderId : UInt64)
deriving DecidableEq, Repr

namespace OeResponse

/-- What a response makes the client call back, whoever waits for what. -/
def callbacks : OeResponse → List Callback
  | .ack _ => []
  | .reject orderId _ => [.onReject orderId]
  | .fill orderId quantity price flags => [.onFill ⟨orderId, quantity, price, flags = .CLOSED⟩]
  | .closed orderId => [.onClose orderId]
  | .other => []

end OeResponse

/-! ### The client -/

structure OEClient where
  sessionId : UInt64
  seqNum : UInt32
  clientId : UInt32
  liveOrders : Finset UInt64
deriving DecidableEq

namespace OEClient

/-- What a response does to `live_orders_`. -/
def receive (client : OEClient) : OeResponse → OEClient
  | .ack orderId => { client with liveOrders := insert orderId client.liveOrders }
  | .fill orderId _ _ flags =>
      if flags = .CLOSED then { client with liveOrders := client.liveOrders.erase orderId }
      else client
  | .closed orderId => { client with liveOrders := client.liveOrders.erase orderId }
  | .reject _ _ => client
  | .other => client

/-- How one response ends `wait_for_response`, if it does.  The id is compared for an ACK and a
REJECT; a closing FILL and a CLOSE end the wait whatever order they are about. -/
def verdict (expectedOrderId : UInt64) : OeResponse → Option Bool
  | .ack orderId => if orderId = expectedOrderId then some true else none
  | .reject orderId rejectReason =>
      if orderId = expectedOrderId then
        if rejectReason = .UKNOWN_ORDER_ID then some true else some false
      else none
  | .fill _ _ _ flags => if flags = .CLOSED then some true else none
  | .closed _ => some true
  | .other => none

/-- Milliseconds on the clock, which counts nanoseconds. -/
def milliseconds (count : Int) : Int := count * 1000000

/-- The responses `wait_for_response` reads, when it reads the clock at `start` and again at
`check`.  The inner loop is left only by a return, so the deadline is compared once, before the
first read.  The stream ends where `read_response` fails. -/
def waitScan (start check : Int) (expectedOrderId : UInt64) (stream : List OeResponse) :
    Scan OeResponse Bool :=
  if check > start + milliseconds 3000 then ⟨[], stream, some false⟩
  else scan (verdict expectedOrderId) stream

/-- What a call on the client leaves behind. -/
structure Result where
  client : OEClient
  sent : List OeRequest
  callbacks : List Callback
  read : List OeResponse
  unread : List OeResponse
  returned : Bool

def waitForResponse (client : OEClient) (start check : Int) (expectedOrderId : UInt64)
    (stream : List OeResponse) : Result :=
  let waited := waitScan start check expectedOrderId stream
  { client := waited.read.foldl receive client
    sent := []
    callbacks := waited.read.flatMap OeResponse.callbacks
    read := waited.read
    unread := waited.unread
    returned := waited.verdict.getD false }

/-- `++seq_num_` and the header of the request. -/
def header (client : OEClient) : OEClient × OeRequestHeader :=
  let counted := { client with seqNum := client.seqNum + 1 }
  (counted, ⟨counted.seqNum, counted.clientId, counted.sessionId⟩)

/-- Write one request and wait for its response. -/
def request (client : OEClient) (start check : Int) (orderId : UInt64)
    (body : OeRequestHeader → OeRequest) (stream : List OeResponse) : Result :=
  { client.header.1.waitForResponse start check orderId stream with
    sent := [body client.header.2] }

def sendNewOrder (client : OEClient) (start check : Int) (orderId : UInt64) (symbol : UInt32)
    (side : Side) (qty : UInt32) (price : Int32) (stream : List OeResponse) : Result :=
  client.request start check orderId
    (fun header => .newOrder header orderId symbol side qty price 0) stream

/-- The request alone; the caller collects the ACK. -/
def sendNewOrderNoWait (client : OEClient) (orderId : UInt64) (symbol : UInt32) (side : Side)
    (qty : UInt32) (price : Int32) : OEClient × OeRequest :=
  (client.header.1, .newOrder client.header.2 orderId symbol side qty price 0)

def modifyOrder (client : OEClient) (start check : Int) (orderId : UInt64) (side : Side)
    (qty : UInt32) (price : Int32) (stream : List OeResponse) : Result :=
  client.request start check orderId
    (fun header => .modifyOrder header orderId side qty price) stream

def deleteOrder (client : OEClient) (start check : Int) (orderId : UInt64)
    (stream : List OeResponse) : Result :=
  client.request start check orderId (fun header => .deleteOrder header orderId) stream

/-! ### The two reading loops, branch by branch

`wait_for_response` and `wait_for_fill` handle the same messages in two hand-written loops.  Each
turn below is one iteration of the source: what the branch of the message does to the client, what
it calls back, and with what it returns, if it does. -/

/-- One iteration of a reading loop. -/
structure Turn where
  client : OEClient
  callbacks : List Callback
  returns : Option Bool

/-- An iteration of `wait_for_response`. -/
def responseTurn (expectedOrderId : UInt64) (client : OEClient) : OeResponse → Turn
  | .ack orderId =>
      { client := { client with liveOrders := insert orderId client.liveOrders }
        callbacks := []
        returns := if orderId = expectedOrderId then some true else none }
  | .reject orderId rejectReason =>
      { client := client
        callbacks := [.onReject orderId]
        returns :=
          if orderId = expectedOrderId then
            if rejectReason = .UKNOWN_ORDER_ID then some true else some false
          else none }
  | .fill orderId quantity price flags =>
      let closed : Bool := flags = .CLOSED
      { client :=
          if closed then { client with liveOrders := client.liveOrders.erase orderId } else client
        callbacks := [.onFill ⟨orderId, quantity, price, closed⟩]
        returns := if closed then some true else none }
  | .closed orderId =>
      { client := { client with liveOrders := client.liveOrders.erase orderId }
        callbacks := [.onClose orderId]
        returns := some true }
  | .other => { client := client, callbacks := [], returns := none }

/-- An iteration of `wait_for_fill`. -/
def fillTurn (expectedOrderId : UInt64) (client : OEClient) : OeResponse → Turn
  | .fill orderId quantity price flags =>
      let closed : Bool := flags = .CLOSED
      { client :=
          if closed then { client with liveOrders := client.liveOrders.erase orderId } else client
        callbacks := [.onFill ⟨orderId, quantity, price, closed⟩]
        returns := if orderId = expectedOrderId ∧ closed then some true else none }
  | .ack orderId =>
      { client := { client with liveOrders := insert orderId client.liveOrders }
        callbacks := []
        returns := none }
  | .reject orderId _ =>
      { client := client
        callbacks := [.onReject orderId]
        returns := if orderId = expectedOrderId then some false else none }
  | .closed orderId =>
      { client := { client with liveOrders := client.liveOrders.erase orderId }
        callbacks := [.onClose orderId]
        returns := if orderId = expectedOrderId then some false else none }
  | .other => { client := client, callbacks := [], returns := none }

/-- A reading loop: unless it is late at the top of the `count`th iteration, it reads the next
response and takes its turn.  It returns false when it is late or nothing can be read. -/
def readLoop (turn : OEClient → OeResponse → Turn) (late : Nat → Bool) :
    Nat → OEClient → List OeResponse → Result
  | _, client, [] =>
      { client := client, sent := [], callbacks := [], read := [], unread := [], returned := false }
  | count, client, response :: rest =>
      if late count then
        { client := client, sent := [], callbacks := [], read := [], unread := response :: rest
          returned := false }
      else
        let taken := turn client response
        match taken.returns with
        | some value =>
            { client := taken.client, sent := [], callbacks := taken.callbacks, read := [response]
              unread := rest, returned := value }
        | none =>
            let later := readLoop turn late (count + 1) taken.client rest
            { later with
              callbacks := taken.callbacks ++ later.callbacks
              read := response :: later.read }

/-- The loop of `wait_for_response`, with the one comparison of the deadline in front of it. -/
def responseLoop (client : OEClient) (start check : Int) (expectedOrderId : UInt64)
    (stream : List OeResponse) : Result :=
  if check > start + milliseconds 3000 then
    { client := client, sent := [], callbacks := [], read := [], unread := stream
      returned := false }
  else readLoop (responseTurn expectedOrderId) (fun _ => false) 0 client stream

/-- How one response ends `wait_for_fill`, if it does: only a response about the order itself
can. -/
def fillVerdict (expectedOrderId : UInt64) : OeResponse → Option Bool
  | .ack _ => none
  | .reject orderId _ => if orderId = expectedOrderId then some false else none
  | .fill orderId _ _ flags =>
      if orderId = expectedOrderId ∧ flags = .CLOSED then some true else none
  | .closed orderId => if orderId = expectedOrderId then some false else none
  | .other => none

/-- The responses `wait_for_fill` reads when it reads the clock at `start` and at the top of each
iteration. -/
def fillScan (start : Int) (clock : Nat → Int) (expectedOrderId : UInt64)
    (stream : List OeResponse) : Scan OeResponse Bool :=
  scanUntil (fun count => clock count > start + milliseconds 5000) (fillVerdict expectedOrderId) 0
    stream

/-- `wait_for_fill`, which reads the clock at `start` and at the top of each iteration. -/
def waitForFill (client : OEClient) (start : Int) (clock : Nat → Int) (expectedOrderId : UInt64)
    (stream : List OeResponse) : Result :=
  readLoop (fillTurn expectedOrderId) (fun count => clock count > start + milliseconds 5000) 0
    client stream

/-! ### Waits on a stream that need not end

The two loops again, on responses that may keep coming: `stream turn` is what the read of that turn
delivers, `none` where it fails, and `clock turn` is the time at the top of the turn. -/

/-- A wait so far. -/
structure Waiting where
  client : OEClient
  callbacks : List Callback
  readsStarted : Nat
  returned : Option Bool

/-- At most `fuel` iterations of a reading loop, from the `count`th on. -/
def readTurns (turn : OEClient → OeResponse → Turn) (late : Nat → Bool)
    (stream : Nat → Option OeResponse) : Nat → Nat → OEClient → Waiting
  | 0, _, client => { client := client, callbacks := [], readsStarted := 0, returned := none }
  | fuel + 1, count, client =>
      if late count then
        { client := client, callbacks := [], readsStarted := 0, returned := some false }
      else
        match stream count with
        | none => { client := client, callbacks := [], readsStarted := 1, returned := some false }
        | some response =>
            let taken := turn client response
            match taken.returns with
            | some value =>
                { client := taken.client, callbacks := taken.callbacks, readsStarted := 1
                  returned := some value }
            | none =>
                let later := readTurns turn late stream fuel (count + 1) taken.client
                { later with
                  callbacks := taken.callbacks ++ later.callbacks
                  readsStarted := later.readsStarted + 1 }

/-- `wait_for_response`, which compares the clock with its deadline in front of the inner loop and
never again. -/
def responseTurns (client : OEClient) (start : Int) (clock : Nat → Int) (expectedOrderId : UInt64)
    (stream : Nat → Option OeResponse) (fuel : Nat) : Waiting :=
  readTurns (responseTurn expectedOrderId)
    (fun count => count = 0 ∧ clock 0 > start + milliseconds 3000) stream fuel 0 client

/-- `wait_for_fill`, which compares them at the top of each iteration. -/
def fillTurns (client : OEClient) (start : Int) (clock : Nat → Int) (expectedOrderId : UInt64)
    (stream : Nat → Option OeResponse) (fuel : Nat) : Waiting :=
  readTurns (fillTurn expectedOrderId) (fun count => clock count > start + milliseconds 5000) stream
    fuel 0 client

end OEClient

end HftAlgorithms
