/-
Module: HftAlgorithms.MarketData.Messages
Purpose: The market-data messages of `messages.h` that the order books read.
Trusted boundary: none
Main exports: Side, MsgType, MdHeader, NewOrder, DeleteOrder, ModifyOrder, Trade,
  BookMsg
-/

namespace HftAlgorithms

/-- `SIDE`, an unchecked byte on the wire: a message may carry neither value. -/
inductive Side where
  | BUY
  | SELL
  | invalid (byte : UInt8)
deriving DecidableEq, Repr, Inhabited

/-- `MSG_TYPE` of the market-data feed. -/
inductive MsgType where
  | HEARTBEAT
  | NEW_ORDER
  | DELETE_ORDER
  | MODIFY_ORDER
  | TRADE
  | TRADE_SUMMARY
  | SNAPSHOT_INFO
  | unknown (byte : UInt8)
deriving DecidableEq, Repr, Inhabited

/-- The fields of `md_header` that a book handler reads. -/
@[ext] structure MdHeader where
  seqNum : UInt32
  msgType : MsgType
deriving DecidableEq, Repr, Inhabited

/-- `new_order` -/
@[ext] structure NewOrder where
  header : MdHeader
  orderId : UInt64
  symbol : UInt32
  side : Side
  quantity : UInt32
  price : Int32
deriving DecidableEq, Repr, Inhabited

/-- `delete_order` -/
@[ext] structure DeleteOrder where
  header : MdHeader
  orderId : UInt64
deriving DecidableEq, Repr, Inhabited

/-- `modify_order` -/
@[ext] structure ModifyOrder where
  header : MdHeader
  orderId : UInt64
  side : Side
  quantity : UInt32
  price : Int32
deriving DecidableEq, Repr, Inhabited

/-- `trade` -/
@[ext] structure Trade where
  header : MdHeader
  orderId : UInt64
  quantity : UInt32
deriving DecidableEq, Repr, Inhabited

/-- One message for a book, with the handler it goes to. -/
inductive BookMsg where
  | newOrder (msg : NewOrder)
  | deleteOrder (msg : DeleteOrder)
  | modifyOrder (msg : ModifyOrder)
  | trade (msg : Trade)
deriving DecidableEq, Repr, Inhabited

/-- The order a message is about. -/
def BookMsg.orderId : BookMsg → UInt64
  | .newOrder msg => msg.orderId
  | .deleteOrder msg => msg.orderId
  | .modifyOrder msg => msg.orderId
  | .trade msg => msg.orderId

/-- The feed's sequence number of a message. -/
def BookMsg.seqNum : BookMsg → UInt32
  | .newOrder msg => msg.header.seqNum
  | .deleteOrder msg => msg.header.seqNum
  | .modifyOrder msg => msg.header.seqNum
  | .trade msg => msg.header.seqNum

end HftAlgorithms
