/-
Module: HftAlgorithms.Proofs.PacketEncoding
Purpose: The packets of the feed as they are sent, each type of `messages.h` under its
  own layout, and what the listener takes them for once they are in its buffer.
Trusted boundary: none
Main exports: WirePacket, WirePacket.bytes, WirePacket.packet, WirePacket.Sound,
  WirePacket.parse_received, WirePacket.readPacket_received
-/
import HftAlgorithms.MarketData.PacketBytes
import HftAlgorithms.Proofs.SnapshotPackets

namespace HftAlgorithms

open LittleEndian

/-! ### What is sent -/

/-- A packet of the feed with all its fields, or one that is somebody else's. -/
inductive WirePacket where
  | snapshot (blocks : List WireBlock)
  | newOrder (timestamp : UInt64) (msg : NewOrder) (flags : UInt8)
  | deleteOrder (timestamp : UInt64) (msg : DeleteOrder)
  | modifyOrder (timestamp : UInt64) (msg : ModifyOrder)
  | trade (timestamp : UInt64) (msg : Trade) (price : Int32)
  | tradeSummary (timestamp : UInt64) (seqNum symbol : UInt32) (aggressorSide : UInt8)
      (totalQuantity : UInt32) (lastPrice : Int32)
  | heartbeat (timestamp : UInt64) (seqNum : UInt32)
  | foreign (bytes : List UInt8)

namespace WirePacket

/-- The bytes of a packet. -/
def bytes : WirePacket → List UInt8
  | .snapshot blocks => packetBytes blocks
  | .newOrder timestamp msg flags => WireOrder.bytes ⟨MAGIC_NUMBER, timestamp, msg, flags⟩
  | .deleteOrder timestamp msg =>
      headerBytes MAGIC_NUMBER 31 msg.header timestamp ++ bytesOf 8 msg.orderId.toNat
  | .modifyOrder timestamp msg =>
      headerBytes MAGIC_NUMBER 40 msg.header timestamp ++
        (bytesOf 8 msg.orderId.toNat ++ ([msg.side.toByte] ++
          (bytesOf 4 msg.quantity.toNat ++ bytesOf 4 msg.price.toUInt32.toNat)))
  | .trade timestamp msg price =>
      headerBytes MAGIC_NUMBER 39 msg.header timestamp ++
        (bytesOf 8 msg.orderId.toNat ++ (bytesOf 4 msg.quantity.toNat ++
          bytesOf 4 price.toUInt32.toNat))
  | .tradeSummary timestamp seqNum symbol aggressorSide totalQuantity lastPrice =>
      headerBytes MAGIC_NUMBER 36 ⟨seqNum, .TRADE_SUMMARY⟩ timestamp ++
        (bytesOf 4 symbol.toNat ++ ([aggressorSide] ++
          (bytesOf 4 totalQuantity.toNat ++ bytesOf 4 lastPrice.toUInt32.toNat)))
  | .heartbeat timestamp seqNum => headerBytes MAGIC_NUMBER 23 ⟨seqNum, .HEARTBEAT⟩ timestamp
  | .foreign bytes => bytes

/-- What the packet says. -/
def packet : WirePacket → Packet
  | .snapshot blocks => .snapshot ((blocks.map WireBlock.block).flatMap SnapshotBlock.records)
  | .newOrder _ msg _ => .book (.newOrder msg)
  | .deleteOrder _ msg => .book (.deleteOrder msg)
  | .modifyOrder _ msg => .book (.modifyOrder msg)
  | .trade _ msg _ => .book (.trade msg)
  | .tradeSummary .. => .otherMessage
  | .heartbeat .. => .heartbeat
  | .foreign _ => .foreign

def isSnapshot : WirePacket → Bool
  | .snapshot _ => true
  | _ => false

/-- A message has the type it is sent as and a side; a snapshot has the feed's magic number at its
front, and its blocks as many orders as they announce; what is not of the feed has another magic
number. -/
def Sound : WirePacket → Prop
  | .snapshot blocks =>
      (∃ first rest, blocks = first :: rest ∧ first.magicNumber = SNAPSHOT_MAGIC_NUMBER) ∧
        ∀ sent ∈ blocks, sent.block.Announced
  | .newOrder _ msg _ => msg.header.msgType = .NEW_ORDER ∧ (msg.side = .BUY ∨ msg.side = .SELL)
  | .deleteOrder _ msg => msg.header.msgType = .DELETE_ORDER
  | .modifyOrder _ msg =>
      msg.header.msgType = .MODIFY_ORDER ∧ (msg.side = .BUY ∨ msg.side = .SELL)
  | .trade _ msg _ => msg.header.msgType = .TRADE
  | .tradeSummary .. => True
  | .heartbeat .. => True
  | .foreign bytes =>
      8 ≤ bytes.length ∧
        UInt64.ofNat (word (fun index => bytes.getD index 0) 0 8) ≠ MAGIC_NUMBER ∧
          UInt64.ofNat (word (fun index => bytes.getD index 0) 0 8) ≠ SNAPSHOT_MAGIC_NUMBER

end WirePacket

/-! ### What is received -/

section Received

variable {buf : Memory}

theorem readMagicNumber_of_holds {magicNumber timestamp : UInt64} {length : UInt16}
    {header : MdHeader} {offset : Nat}
    (holds : Holds buf offset (headerBytes magicNumber length header timestamp)) :
    readMagicNumber buf offset = magicNumber := by
  rw [headerBytes, holds_append] at holds
  rw [readMagicNumber, holds.1.uint64]

/-- Eight bytes make the magic number, whatever they mean. -/
theorem word_front_of_holds {bytes : List UInt8} (long : 8 ≤ bytes.length)
    (holds : Holds buf 0 bytes) :
    word buf 0 8 = word (fun index => bytes.getD index 0) 0 8 := by
  apply word_congr
  intro index _ below
  have stands := holds.getD (Nat.lt_of_lt_of_le below long) 0
  rwa [Nat.zero_add] at stands

/-- A header is read as it was sent. -/
theorem readMdHeader_of_holds {magicNumber timestamp : UInt64} {length : UInt16}
    {header : MdHeader} (typed : MsgType.ofByte header.msgType.toByte = header.msgType)
    (holds : Holds buf 0 (headerBytes magicNumber length header timestamp)) :
    readMdHeader buf 0 = header := by
  obtain ⟨-, seqNum, type⟩ := readHeader_of_holds holds
  rw [readMdHeader, readMsgType, type, seqNum, typed]

end Received

namespace WirePacket

variable {buf : Memory} {sent : WirePacket}

/-- A packet outside the snapshot branch has the magic number of messages, or neither. -/
theorem readMagicNumber_message (sound : sent.Sound) (message : sent.isSnapshot = false)
    (holds : Holds buf 0 sent.bytes) :
    readMagicNumber buf 0 ≠ SNAPSHOT_MAGIC_NUMBER ∧
      (readMagicNumber buf 0 = MAGIC_NUMBER ∨ sent.packet = .foreign) := by
  have other : MAGIC_NUMBER ≠ SNAPSHOT_MAGIC_NUMBER := by decide
  have own {bytes : List UInt8} {length : UInt16} {header : MdHeader} {timestamp : UInt64}
      (front : Holds buf 0 (headerBytes MAGIC_NUMBER length header timestamp ++ bytes)) :
      readMagicNumber buf 0 = MAGIC_NUMBER :=
    readMagicNumber_of_holds (holds_append.mp front).1
  have marked (magic : readMagicNumber buf 0 = MAGIC_NUMBER) :
      readMagicNumber buf 0 ≠ SNAPSHOT_MAGIC_NUMBER ∧
        (readMagicNumber buf 0 = MAGIC_NUMBER ∨ sent.packet = .foreign) :=
    ⟨magic ▸ other, Or.inl magic⟩
  cases sent with
  | snapshot blocks => cases message
  | newOrder timestamp msg flags => exact marked (own holds)
  | deleteOrder timestamp msg => exact marked (own holds)
  | modifyOrder timestamp msg => exact marked (own holds)
  | trade timestamp msg price => exact marked (own holds)
  | tradeSummary timestamp seqNum symbol aggressorSide totalQuantity lastPrice =>
      exact marked (own holds)
  | heartbeat timestamp seqNum => exact marked (readMagicNumber_of_holds holds)
  | foreign bytes =>
      obtain ⟨long, -, notSnapshot⟩ := sound
      rw [readMagicNumber, word_front_of_holds long holds]
      exact ⟨notSnapshot, Or.inr rfl⟩

theorem ofByte_toByte_bookType {type : MsgType}
    (known : type = .NEW_ORDER ∨ type = .DELETE_ORDER ∨ type = .MODIFY_ORDER ∨ type = .TRADE) :
    MsgType.ofByte type.toByte = type := by
  rcases known with rfl | rfl | rfl | rfl <;> rfl

/-- A message is found by the `switch`. -/
theorem readBookMsg_of_holds {msg : BookMsg} (sound : sent.Sound)
    (view : sent.packet = .book msg) (holds : Holds buf 0 sent.bytes) :
    readBookMsg buf = some msg := by
  cases sent with
  | newOrder timestamp order flags =>
      cases view
      obtain ⟨typed, side⟩ := sound
      obtain ⟨order, -, type⟩ := readNewOrder_of_holds typed side holds
      rw [readBookMsg, type]
      exact congrArg (fun order => some (BookMsg.newOrder order)) order
  | deleteOrder timestamp order =>
      cases view
      rw [bytes, holds_append, length_headerBytes, sizeofMdHeader] at holds
      obtain ⟨header, orderId⟩ := holds
      have typed : order.header.msgType = .DELETE_ORDER := sound
      have read := readMdHeader_of_holds (ofByte_toByte_bookType (by simp [typed])) header
      have type : readMsgType buf 0 = .DELETE_ORDER := by
        rw [← typed, ← read]
        rfl
      rw [readBookMsg, type]
      simp only [readDeleteOrder, read, orderId.uint64]
  | modifyOrder timestamp order =>
      cases view
      obtain ⟨typed, side⟩ := sound
      rw [bytes, holds_append, length_headerBytes, sizeofMdHeader] at holds
      obtain ⟨header, fields⟩ := holds
      simp only [holds_append, holds_singleton, length_bytesOf, List.length_singleton,
        Nat.reduceAdd] at fields
      obtain ⟨orderId, sideByte, quantity, price⟩ := fields
      have read := readMdHeader_of_holds (ofByte_toByte_bookType (by simp [typed])) header
      have type : readMsgType buf 0 = .MODIFY_ORDER := by
        rw [← typed, ← read]
        rfl
      rw [readBookMsg, type]
      simp only [readModifyOrder, read, orderId.uint64, sideByte, Side.ofByte_toByte side,
        quantity.uint32, price.uint32, Int32.toInt32_toUInt32]
  | trade timestamp order price =>
      cases view
      rw [bytes, holds_append, length_headerBytes, sizeofMdHeader] at holds
      obtain ⟨header, fields⟩ := holds
      simp only [holds_append, length_bytesOf, Nat.reduceAdd] at fields
      obtain ⟨orderId, quantity, -⟩ := fields
      have typed : order.header.msgType = .TRADE := sound
      have read := readMdHeader_of_holds (ofByte_toByte_bookType (by simp [typed])) header
      have type : readMsgType buf 0 = .TRADE := by
        rw [← typed, ← read]
        rfl
      rw [readBookMsg, type]
      simp only [readTrade, read, orderId.uint64, quantity.uint32]
  | snapshot blocks => cases view
  | tradeSummary timestamp seqNum symbol aggressorSide totalQuantity lastPrice => cases view
  | heartbeat timestamp seqNum => cases view
  | foreign bytes => cases view

/-- A packet outside the snapshot branch is taken for what it says. -/
theorem parse_of_holds (sound : sent.Sound) (message : sent.isSnapshot = false)
    (holds : Holds buf 0 sent.bytes) (bytes : Nat) :
    RawPacket.parse ⟨buf, bytes⟩ = sent.packet := by
  obtain ⟨-, magic⟩ := readMagicNumber_message sound message holds
  cases view : sent.packet with
  | book msg =>
      have isMessage : RawPacket.IsMessage ⟨buf, bytes⟩ :=
        magic.resolve_right (by simp [view])
      rw [RawPacket.parse, if_pos isMessage, readBookMsg_of_holds sound view holds]
  | heartbeat =>
      cases sent <;> cases view
      rename_i timestamp seqNum
      have isMessage : RawPacket.IsMessage ⟨buf, bytes⟩ := readMagicNumber_of_holds holds
      have type : readMsgType buf 0 = .HEARTBEAT :=
        congrArg MdHeader.msgType (readMdHeader_of_holds rfl holds)
      rw [RawPacket.parse, if_pos isMessage, readBookMsg, type]
      rfl
  | otherMessage =>
      cases sent <;> cases view
      rw [WirePacket.bytes, holds_append] at holds
      have isMessage : RawPacket.IsMessage ⟨buf, bytes⟩ := readMagicNumber_of_holds holds.1
      have type : readMsgType buf 0 = .TRADE_SUMMARY :=
        congrArg MdHeader.msgType (readMdHeader_of_holds rfl holds.1)
      rw [RawPacket.parse, if_pos isMessage, readBookMsg, type]
      rfl
  | foreign =>
      cases sent <;> cases view
      obtain ⟨long, notMagic, -⟩ := sound
      have notMessage : ¬ RawPacket.IsMessage ⟨buf, bytes⟩ := by
        rw [RawPacket.IsMessage, readMagicNumber, word_front_of_holds long holds]
        exact notMagic
      rw [RawPacket.parse, if_neg notMessage]
  | snapshot records =>
      cases sent <;> cases view
      cases message

/-- A snapshot goes to the snapshot branch, whose loops take its records and end. -/
theorem readPacket_of_holds {blocks : List WireBlock} (sound : (snapshot blocks).Sound)
    (holds : Holds buf 0 (packetBytes blocks)) :
    RawPacket.IsSnapshot ⟨buf, (packetBytes blocks).length⟩ ∧
      ∀ budget, (packetBytes blocks).length ≤ budget → ∀ listener : Listener,
        Listener.readPacket ⟨buf, (packetBytes blocks).length⟩ budget listener .start =
          some (listener.readSnapshot
            ((blocks.map WireBlock.block).flatMap SnapshotBlock.records)) := by
  obtain ⟨⟨first, rest, split, magic⟩, announced⟩ := sound
  constructor
  · rw [split, packetBytes, List.flatMap_cons, WireBlock.bytes, WireBlock.infoBytes] at holds
    simp only [List.append_assoc, holds_append] at holds
    have front := readMagicNumber_of_holds holds.1
    rwa [magic] at front
  · intro budget enough listener
    have takes := @RawPacket.takes_blocks ⟨buf, (packetBytes blocks).length⟩ blocks 0 announced
      holds (by simp)
    rw [Nat.zero_add] at takes
    apply Listener.readPacket_eq_readSnapshot takes
    · apply RawPacket.nextRecord_of_neither
      · exact fun order => Nat.lt_irrefl 0 order.1
      · exact fun opens => Nat.lt_irrefl _ opens.1
    · exact (length_records_le blocks).trans enough

end WirePacket

end HftAlgorithms
