/-
Module: HftAlgorithms.MarketData.PacketBytes
Purpose: The listener on the bytes of its buffer: how a packet outside the snapshot
  branch is read, which fields of the buffer every branch reads, and the buffer
  itself, in which a short packet lies over the rest of an earlier one.
Trusted boundary: none
Main exports: readBookMsg, Extent, Listener.dispatchReads, Listener.messageReads,
  Listener.cursorReads, RawPacket.received, ByteListener, ByteListener.handlings,
  ByteListener.next
-/
import HftAlgorithms.MarketData.SnapshotBytes

namespace HftAlgorithms

open LittleEndian

/-! ### Messages -/

/-- The bytes of "GOIRISH!" as a word. -/
def MAGIC_NUMBER : UInt64 := 0x2148534952494F47

/-- `sizeof(delete_order)` -/
def sizeofDeleteOrder : Nat := 31

/-- `sizeof(modify_order)` -/
def sizeofModifyOrder : Nat := 40

/-- `sizeof(trade)` -/
def sizeofTrade : Nat := 39

def BookMsg.size : BookMsg → Nat
  | .newOrder _ => sizeofNewOrder
  | .deleteOrder _ => sizeofDeleteOrder
  | .modifyOrder _ => sizeofModifyOrder
  | .trade _ => sizeofTrade

def SnapshotRecord.size : SnapshotRecord → Nat
  | .info _ => sizeofSnapshotInfo
  | .order _ => sizeofNewOrder
  | .other => 0

section Messages

variable (buf : Memory)

def readDeleteOrder : DeleteOrder :=
  { header := readMdHeader buf 0, orderId := UInt64.ofNat (word buf 23 8) }

def readModifyOrder : ModifyOrder :=
  { header := readMdHeader buf 0
    orderId := UInt64.ofNat (word buf 23 8)
    side := .ofByte (buf 31)
    quantity := UInt32.ofNat (word buf 32 4)
    price := (UInt32.ofNat (word buf 36 4)).toInt32 }

def readTrade : Trade :=
  { header := readMdHeader buf 0
    orderId := UInt64.ofNat (word buf 23 8)
    quantity := UInt32.ofNat (word buf 31 4) }

/-- The `switch` over `hdr->msg_type`: the same bytes under the layout of each type. -/
def readBookMsg : Option BookMsg :=
  match readMsgType buf 0 with
  | .NEW_ORDER => some (.newOrder (readNewOrder buf 0))
  | .DELETE_ORDER => some (.deleteOrder (readDeleteOrder buf))
  | .MODIFY_ORDER => some (.modifyOrder (readModifyOrder buf))
  | .TRADE => some (.trade (readTrade buf))
  | _ => none

end Messages

namespace RawPacket

/-- The packet goes to the `switch`. -/
def IsMessage (packet : RawPacket) : Prop :=
  readMagicNumber packet.buf 0 = MAGIC_NUMBER

instance (packet : RawPacket) : Decidable packet.IsMessage :=
  inferInstanceAs (Decidable (_ = _))

/-- A packet that does not go to the snapshot branch. -/
def parse (packet : RawPacket) : Packet :=
  if packet.IsMessage then
    match readBookMsg packet.buf with
    | some msg => .book msg
    | none => if readMsgType packet.buf 0 = .HEARTBEAT then .heartbeat else .otherMessage
  else .foreign

/-- `read` and `memcpy` put the bytes over the start of the buffer and leave the rest of it. -/
def received (buf : Memory) (bytes : List UInt8) : RawPacket :=
  { buf := fun index => bytes.getD index (buf index), bytes := bytes.length }

end RawPacket

/-! ### Fields that are read -/

/-- A stretch of the buffer. -/
structure Extent where
  offset : Nat
  width : Nat
deriving DecidableEq, Repr

/-- The stretch lies within so many bytes. -/
def Extent.Within (bytes : Nat) (extent : Extent) : Prop :=
  extent.offset + extent.width ≤ bytes

instance (bytes : Nat) (extent : Extent) : Decidable (extent.Within bytes) :=
  inferInstanceAs (Decidable (_ ≤ _))

section Fields

variable (offset : Nat)

def magicNumberAt : Extent := ⟨offset, 8⟩
def lengthAt : Extent := ⟨offset + 8, 2⟩
def seqNumAt : Extent := ⟨offset + 10, 4⟩
def msgTypeAt : Extent := ⟨offset + 22, 1⟩

/-- `order_id` stands at the same place in all four order messages. -/
def orderIdAt : Extent := ⟨offset + 23, 8⟩

def NewOrder.symbolAt : Extent := ⟨offset + 31, 4⟩
def NewOrder.sideAt : Extent := ⟨offset + 35, 1⟩
def NewOrder.quantityAt : Extent := ⟨offset + 36, 4⟩
def NewOrder.priceAt : Extent := ⟨offset + 40, 4⟩

def ModifyOrder.sideAt : Extent := ⟨offset + 31, 1⟩
def ModifyOrder.quantityAt : Extent := ⟨offset + 32, 4⟩
def ModifyOrder.priceAt : Extent := ⟨offset + 36, 4⟩

def Trade.quantityAt : Extent := ⟨offset + 31, 4⟩

def SnapshotInfo.symbolAt : Extent := ⟨offset + 23, 4⟩
def SnapshotInfo.bidCountAt : Extent := ⟨offset + 27, 4⟩
def SnapshotInfo.askCountAt : Extent := ⟨offset + 31, 4⟩
def SnapshotInfo.lastMdSeqNumAt : Extent := ⟨offset + 35, 4⟩

end Fields

namespace OrderBook

variable (book : OrderBook)

/-- What `handle_new_order` reads of its message, check by check. -/
def newOrderReads (msg : NewOrder) (offset : Nat) : List Extent :=
  if msg.header.msgType ≠ .NEW_ORDER then [msgTypeAt offset]
  else if msg.side ≠ .BUY ∧ msg.side ≠ .SELL then
    [msgTypeAt offset, NewOrder.sideAt offset, orderIdAt offset]
  else if (book.orders.lookup msg.orderId).isSome then
    [msgTypeAt offset, NewOrder.sideAt offset, orderIdAt offset]
  else if msg.quantity = 0 then
    [msgTypeAt offset, NewOrder.sideAt offset, orderIdAt offset, NewOrder.quantityAt offset]
  else if msg.price < 0 then
    [msgTypeAt offset, NewOrder.sideAt offset, orderIdAt offset, NewOrder.quantityAt offset,
      NewOrder.priceAt offset]
  else
    [msgTypeAt offset, NewOrder.sideAt offset, orderIdAt offset, NewOrder.quantityAt offset,
      NewOrder.priceAt offset, NewOrder.symbolAt offset, seqNumAt offset]

/-- The order is resting, and it belongs to the book's own symbol. -/
def Rests (id : UInt64) : Prop :=
  ∃ info, book.orders.lookup id = some info ∧ info.symbol = book.symbol

instance (id : UInt64) : Decidable (book.Rests id) :=
  match found : book.orders.lookup id with
  | none => isFalse fun ⟨info, same, _⟩ => by simp [found] at same
  | some info =>
      if own : info.symbol = book.symbol then isTrue ⟨info, found, own⟩
      else isFalse fun ⟨other, same, symbol⟩ => by
        rw [found, Option.some.injEq] at same
        exact own (same ▸ symbol)

def deleteOrderReads (msg : DeleteOrder) : List Extent :=
  if book.Rests msg.orderId then [orderIdAt 0, seqNumAt 0] else [orderIdAt 0]

def modifyOrderReads (msg : ModifyOrder) : List Extent :=
  if book.Rests msg.orderId then
    [orderIdAt 0, ModifyOrder.priceAt 0, ModifyOrder.quantityAt 0, ModifyOrder.sideAt 0,
      seqNumAt 0]
  else [orderIdAt 0]

/-- A trade of more than the order leaves out `last_seq_num_`. -/
def tradeReads (msg : Trade) : List Extent :=
  match book.orders.lookup msg.orderId with
  | none => [orderIdAt 0]
  | some info =>
      if info.symbol ≠ book.symbol then [orderIdAt 0]
      else if msg.quantity > info.quantity then [orderIdAt 0, Trade.quantityAt 0]
      else [orderIdAt 0, Trade.quantityAt 0, seqNumAt 0]

end OrderBook

namespace Listener

variable (listener : Listener)

def bookOf (symbol : UInt32) : OrderBook := (listener.manager.slots symbol).book

/-- What a dispatch function and the handler that it calls read.  A NEW_ORDER may stand inside a
snapshot packet. -/
def dispatchReads (offset : Nat) : BookMsg → List Extent
  | .newOrder msg =>
      [NewOrder.symbolAt offset, orderIdAt offset] ++
        (listener.bookOf msg.symbol).newOrderReads msg offset
  | .deleteOrder msg =>
      orderIdAt 0 ::
        match listener.orderToSymbol.lookup msg.orderId with
        | none => []
        | some symbol => (listener.bookOf symbol).deleteOrderReads msg
  | .modifyOrder msg =>
      orderIdAt 0 ::
        match listener.orderToSymbol.lookup msg.orderId with
        | none => []
        | some symbol => (listener.bookOf symbol).modifyOrderReads msg
  | .trade msg =>
      orderIdAt 0 ::
        match listener.orderToSymbol.lookup msg.orderId with
        | none => []
        | some symbol => (listener.bookOf symbol).tradeReads msg

/-- The message is handed to a handler of the symbol manager. -/
def HandsOver : BookMsg → Prop
  | .newOrder _ => True
  | .deleteOrder msg => (listener.orderToSymbol.lookup msg.orderId).isSome
  | .modifyOrder msg => (listener.orderToSymbol.lookup msg.orderId).isSome
  | .trade msg => (listener.orderToSymbol.lookup msg.orderId).isSome

/-- What the `switch` reads, and what it dispatches to. -/
def messageReads (packet : RawPacket) : List Extent :=
  msgTypeAt 0 ::
    match readBookMsg packet.buf with
    | none => []
    | some msg => listener.dispatchReads 0 msg

/-- What the inner loop reads at a cursor, once its length check has let it. -/
def orderReads (packet : RawPacket) (cursor : Cursor) : List Extent :=
  if 0 < cursor.left ∧ cursor.offset < packet.bytes ∧
      cursor.offset + sizeofNewOrder ≤ packet.bytes then
    msgTypeAt cursor.offset ::
      if readMsgType packet.buf cursor.offset = .NEW_ORDER then
        lengthAt cursor.offset ::
          listener.dispatchReads cursor.offset (.newOrder (readNewOrder packet.buf cursor.offset))
      else []
  else []

/-- What the outer loop reads at a cursor that the inner loop leaves to it. -/
def blockReads (packet : RawPacket) (cursor : Cursor) : List Extent :=
  if ¬ packet.TakesOrder cursor ∧ cursor.offset < packet.bytes then
    msgTypeAt cursor.offset ::
      if readMsgType packet.buf cursor.offset = .SNAPSHOT_INFO then
        [SnapshotInfo.symbolAt cursor.offset, SnapshotInfo.lastMdSeqNumAt cursor.offset,
          SnapshotInfo.bidCountAt cursor.offset, SnapshotInfo.askCountAt cursor.offset,
          lengthAt cursor.offset]
      else []
  else []

def cursorReads (packet : RawPacket) (cursor : Cursor) : List Extent :=
  listener.orderReads packet cursor ++ blockReads packet cursor

end Listener

/-- One turn of the loops over a snapshot packet, with what it does to the listener. -/
def RawPacket.turn (packet : RawPacket) (state : Listener × Cursor) :
    Option (SnapshotRecord × (Listener × Cursor)) :=
  (packet.nextRecord state.2).map fun taken => (taken.1, (state.1.take taken.1, taken.2))

/-! ### The feed -/

/-- What happens to a packet: it is processed as it arrives, it is put into the live buffer, or it
is taken out of it. -/
inductive Arrival where
  | processed
  | buffered
  | drained
deriving DecidableEq, Repr

/-- A packet in the buffer, and the listener that meets it. -/
structure Handling where
  listener : Listener
  arrival : Arrival
  packet : RawPacket

/-- `listener` keeps the books, the routes and the flags; the packets of `live_buffer` are kept as
bytes here, and `listener.liveBuffer` stays empty. -/
structure ByteListener where
  listener : Listener
  buf : Memory
  liveBuffer : List (List UInt8)

/-- What `read` returns on one of the two sockets, or nothing within 10 ms. -/
inductive ByteEvent where
  | live (bytes : List UInt8)
  | replay (bytes : List UInt8)
  | timeout
deriving DecidableEq, Repr

namespace ByteListener

/-- A packet that is not buffered, if the loops over a snapshot end within the budget of turns. -/
def process (budget : Nat) (state : ByteListener) (packet : RawPacket) : Option ByteListener :=
  if packet.IsSnapshot then
    (Listener.readPacket packet budget state.listener .start).map fun listener =>
      { state with listener := listener, buf := packet.buf }
  else some { state with listener := state.listener.process packet.parse, buf := packet.buf }

/-- The live buffer overflows beyond 100000 packets, and `run_listener` returns. -/
def bufferLive (state : ByteListener) (bytes : List UInt8) : ByteListener :=
  let packet := RawPacket.received state.buf bytes
  if state.liveBuffer.length > 100000 then
    { state with listener := { state.listener with running := false }, buf := packet.buf }
  else { state with liveBuffer := state.liveBuffer ++ [bytes], buf := packet.buf }

/-- A buffered packet is copied back over the buffer. -/
def drainOne (state : ByteListener) (bytes : List UInt8) : ByteListener :=
  let packet := RawPacket.received state.buf bytes
  { state with
    listener := packet.parse.bookMsg.elim state.listener state.listener.dispatch
    buf := packet.buf }

def drain (state : ByteListener) : ByteListener :=
  let drained := state.liveBuffer.foldl drainOne state
  { drained with listener := { drained.listener with caughtUp := true }, liveBuffer := [] }

/-- A quiet period counts while the listener is catching up and has seen a snapshot. -/
def counts (state : ByteListener) : Bool :=
  ¬ state.listener.caughtUp ∧ state.listener.receivedSnapshot

/-- The listener after one more quiet period. -/
def counted (state : ByteListener) : ByteListener :=
  { state with
    listener := { state.listener with noReplayCount := state.listener.noReplayCount + 1 } }

def quiet (state : ByteListener) : ByteListener :=
  if state.counts then
    if state.counted.listener.noReplayCount > 100 then state.counted.drain else state.counted
  else state

def next (budget : Nat) (state : ByteListener) (event : ByteEvent) : Option ByteListener :=
  if ¬ state.listener.running then some state
  else
    match event with
    | .live bytes =>
        if state.listener.caughtUp then state.process budget (.received state.buf bytes)
        else some (state.bufferLive bytes)
    | .replay bytes => state.process budget (.received state.buf bytes)
    | .timeout => some state.quiet

end ByteListener

end HftAlgorithms
