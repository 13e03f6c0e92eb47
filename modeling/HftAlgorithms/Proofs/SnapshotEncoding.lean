/-
Module: HftAlgorithms.Proofs.SnapshotEncoding
Purpose: The bytes that snapshot blocks are sent as, and that the listener's loops
  read from them the records that were sent.
Trusted boundary: none
Main exports: WireOrder, WireBlock, packetBytes, SnapshotBlock.Announced,
  readNewOrder_of_holds, readSnapshotInfo_of_holds, RawPacket.takes_blocks
-/
import HftAlgorithms.Proofs.SnapshotReading
import HftAlgorithms.Proofs.SnapshotWalk

namespace HftAlgorithms

open LittleEndian Walk

/-! ### What is sent -/

/-- An order as it is sent, with the fields that no reader of a snapshot looks at. -/
structure WireOrder where
  magicNumber : UInt64
  timestamp : UInt64
  msg : NewOrder
  flags : UInt8

/-- A block as it is sent. -/
structure WireBlock where
  magicNumber : UInt64
  seqNum : UInt32
  timestamp : UInt64
  info : SnapshotInfo
  orders : List WireOrder

/-- What a block says. -/
def WireBlock.block (sent : WireBlock) : SnapshotBlock :=
  ⟨sent.info, sent.orders.map WireOrder.msg⟩

/-- `md_header` -/
def headerBytes (magicNumber : UInt64) (length : UInt16) (header : MdHeader)
    (timestamp : UInt64) : List UInt8 :=
  bytesOf 8 magicNumber.toNat ++ (bytesOf 2 length.toNat ++ (bytesOf 4 header.seqNum.toNat ++
    (bytesOf 8 timestamp.toNat ++ [header.msgType.toByte])))

/-- `new_order` -/
def WireOrder.bytes (order : WireOrder) : List UInt8 :=
  headerBytes order.magicNumber 45 order.msg.header order.timestamp ++
    (bytesOf 8 order.msg.orderId.toNat ++ (bytesOf 4 order.msg.symbol.toNat ++
      ([order.msg.side.toByte] ++ (bytesOf 4 order.msg.quantity.toNat ++
        (bytesOf 4 order.msg.price.toUInt32.toNat ++ [order.flags])))))

/-- `snapshot_info` -/
def WireBlock.infoBytes (sent : WireBlock) : List UInt8 :=
  headerBytes sent.magicNumber 39 ⟨sent.seqNum, .SNAPSHOT_INFO⟩ sent.timestamp ++
    (bytesOf 4 sent.info.symbol.toNat ++ (bytesOf 4 sent.info.bidCount.toNat ++
      (bytesOf 4 sent.info.askCount.toNat ++ bytesOf 4 sent.info.lastMdSeqNum.toNat)))

def WireBlock.bytes (sent : WireBlock) : List UInt8 :=
  sent.infoBytes ++ sent.orders.flatMap WireOrder.bytes

def packetBytes (blocks : List WireBlock) : List UInt8 := blocks.flatMap WireBlock.bytes

theorem length_headerBytes (magicNumber : UInt64) (length : UInt16) (header : MdHeader)
    (timestamp : UInt64) :
    (headerBytes magicNumber length header timestamp).length = sizeofMdHeader := by
  simp [headerBytes, sizeofMdHeader]

theorem WireOrder.length_bytes (order : WireOrder) : order.bytes.length = sizeofNewOrder := by
  simp [WireOrder.bytes, length_headerBytes, sizeofMdHeader, sizeofNewOrder]

theorem WireBlock.length_infoBytes (sent : WireBlock) :
    sent.infoBytes.length = sizeofSnapshotInfo := by
  simp [WireBlock.infoBytes, length_headerBytes, sizeofMdHeader, sizeofSnapshotInfo]

/-! ### One record -/

section Records

variable {buf : Memory} {offset : Nat}

theorem readHeader_of_holds {magicNumber timestamp : UInt64} {length : UInt16} {header : MdHeader}
    (holds : Holds buf offset (headerBytes magicNumber length header timestamp)) :
    readLength buf offset = length ∧
      UInt32.ofNat (word buf (offset + 10) 4) = header.seqNum ∧
        buf (offset + 22) = header.msgType.toByte := by
  simp only [headerBytes, holds_append, length_bytesOf, Nat.add_assoc, Nat.reduceAdd,
    holds_singleton] at holds
  obtain ⟨-, length, seqNum, -, type⟩ := holds
  exact ⟨length.uint16, seqNum.uint32, type⟩

/-- A NEW_ORDER is read as it was sent. -/
theorem readNewOrder_of_holds {order : WireOrder}
    (typed : order.msg.header.msgType = .NEW_ORDER)
    (side : order.msg.side = .BUY ∨ order.msg.side = .SELL)
    (holds : Holds buf offset order.bytes) :
    readNewOrder buf offset = order.msg ∧ readLength buf offset = 45 ∧
      readMsgType buf offset = .NEW_ORDER := by
  rw [WireOrder.bytes, holds_append, length_headerBytes, sizeofMdHeader] at holds
  obtain ⟨header, fields⟩ := holds
  obtain ⟨length, seqNum, type⟩ := readHeader_of_holds header
  simp only [holds_append, length_bytesOf, List.length_singleton, Nat.add_assoc, Nat.reduceAdd,
    holds_singleton] at fields
  obtain ⟨orderId, symbol, sideByte, quantity, price, -⟩ := fields
  have msgType : readMsgType buf offset = .NEW_ORDER := by
    rw [readMsgType, type, typed]
    rfl
  refine ⟨?_, length, msgType⟩
  rw [readNewOrder, readMdHeader, seqNum, msgType, orderId.uint64, symbol.uint32, sideByte,
    Side.ofByte_toByte side, quantity.uint32, price.uint32, Int32.toInt32_toUInt32, ← typed]

/-- A SNAPSHOT_INFO is read as it was sent. -/
theorem readSnapshotInfo_of_holds {sent : WireBlock} (holds : Holds buf offset sent.infoBytes) :
    readSnapshotInfo buf offset = sent.info ∧ readLength buf offset = 39 ∧
      readMsgType buf offset = .SNAPSHOT_INFO := by
  rw [WireBlock.infoBytes, holds_append, length_headerBytes, sizeofMdHeader] at holds
  obtain ⟨header, fields⟩ := holds
  obtain ⟨length, -, type⟩ := readHeader_of_holds header
  simp only [holds_append, length_bytesOf, Nat.add_assoc, Nat.reduceAdd] at fields
  obtain ⟨symbol, bidCount, askCount, lastMdSeqNum⟩ := fields
  refine ⟨?_, length, ?_⟩
  · rw [readSnapshotInfo, symbol.uint32, bidCount.uint32, askCount.uint32, lastMdSeqNum.uint32]
  · rw [readMsgType, type]
    rfl

end Records

/-! ### The loops -/

/-- The block announces the number of its orders, which are typed and have a side. -/
structure SnapshotBlock.Announced (block : SnapshotBlock) : Prop where
  counted : block.orders.length = (block.info.bidCount + block.info.askCount).toNat
  typed : ∀ msg ∈ block.orders, msg.header.msgType = .NEW_ORDER
  sided : ∀ msg ∈ block.orders, msg.side = .BUY ∨ msg.side = .SELL

namespace RawPacket

variable {packet : RawPacket}

/-- The inner loop takes the orders of a block, if it is left as many turns. -/
theorem takes_orders {orders : List WireOrder} {offset : Nat}
    (typed : ∀ order ∈ orders, order.msg.header.msgType = .NEW_ORDER)
    (sided : ∀ order ∈ orders, order.msg.side = .BUY ∨ order.msg.side = .SELL)
    (holds : Holds packet.buf offset (orders.flatMap WireOrder.bytes))
    (within : offset + (orders.flatMap WireOrder.bytes).length ≤ packet.bytes) :
    Takes packet.nextRecord ⟨offset, orders.length⟩
      ((orders.map WireOrder.msg).map SnapshotRecord.order)
      ⟨offset + (orders.flatMap WireOrder.bytes).length, 0⟩ := by
  induction orders generalizing offset with
  | nil => exact .nothing _
  | cons order orders inductionHypothesis =>
      rw [List.flatMap_cons, holds_append, order.length_bytes] at holds
      rw [List.flatMap_cons, List.length_append, order.length_bytes] at within ⊢
      obtain ⟨record, length, isOrder⟩ := readNewOrder_of_holds (typed order List.mem_cons_self)
        (sided order List.mem_cons_self) holds.1
      have takes : packet.TakesOrder ⟨offset, (order :: orders).length⟩ := by
        refine ⟨Nat.succ_pos _, ?_, ?_, isOrder⟩
        · rw [sizeofNewOrder] at within
          change offset < packet.bytes
          omega
        · change offset + sizeofNewOrder ≤ packet.bytes
          omega
      have took := nextRecord_of_takesOrder takes
      dsimp only at took
      rw [record, length] at took
      rw [← Nat.add_assoc] at within ⊢
      exact .item took (inductionHypothesis
        (fun later member => typed later (List.mem_cons_of_mem _ member))
        (fun later member => sided later (List.mem_cons_of_mem _ member)) holds.2 within)

/-- The outer loop takes block after block. -/
theorem takes_blocks {blocks : List WireBlock} {offset : Nat}
    (announced : ∀ sent ∈ blocks, sent.block.Announced)
    (holds : Holds packet.buf offset (packetBytes blocks))
    (within : offset + (packetBytes blocks).length ≤ packet.bytes) :
    Takes packet.nextRecord ⟨offset, 0⟩
      ((blocks.map WireBlock.block).flatMap SnapshotBlock.records)
      ⟨offset + (packetBytes blocks).length, 0⟩ := by
  induction blocks generalizing offset with
  | nil => exact .nothing _
  | cons sent blocks inductionHypothesis =>
      obtain ⟨counted, typed, sided⟩ := announced sent List.mem_cons_self
      rw [packetBytes, List.flatMap_cons, WireBlock.bytes, List.append_assoc, holds_append,
        holds_append, sent.length_infoBytes] at holds
      rw [packetBytes, List.flatMap_cons, WireBlock.bytes, List.append_assoc, List.length_append,
        List.length_append, sent.length_infoBytes] at within ⊢
      obtain ⟨infoHolds, ordersHold, blocksHold⟩ := holds
      obtain ⟨record, length, isInfo⟩ := readSnapshotInfo_of_holds infoHolds
      have opens : packet.OpensBlock ⟨offset, 0⟩ := by
        refine ⟨?_, isInfo⟩
        rw [sizeofSnapshotInfo] at within
        change offset < packet.bytes
        omega
      have took := nextRecord_of_opensBlock opens
      dsimp only at took
      rw [record, length] at took
      have ordersTaken := takes_orders
        (fun order member => typed _ (List.mem_map_of_mem member))
        (fun order member => sided _ (List.mem_map_of_mem member)) ordersHold (by omega)
      have rest := inductionHypothesis
        (fun later member => announced later (List.mem_cons_of_mem _ member)) blocksHold
        (by rw [packetBytes]; omega)
      rw [WireBlock.block, List.length_map] at counted
      rw [counted] at ordersTaken
      have body := ordersTaken.append rest
      rw [packetBytes, Nat.add_assoc, Nat.add_assoc] at body
      exact .item took body

end RawPacket

/-- No packet has more records than bytes. -/
theorem length_records_le (blocks : List WireBlock) :
    ((blocks.map WireBlock.block).flatMap SnapshotBlock.records).length ≤
      (packetBytes blocks).length := by
  have orders : ∀ orders : List WireOrder,
      orders.length ≤ (orders.flatMap WireOrder.bytes).length := by
    intro orders
    induction orders with
    | nil => exact Nat.le_refl 0
    | cons order orders inductionHypothesis =>
        rw [List.flatMap_cons, List.length_append, order.length_bytes, List.length_cons,
          sizeofNewOrder]
        omega
  induction blocks with
  | nil => exact Nat.le_refl 0
  | cons sent blocks inductionHypothesis =>
      have inBlock := orders sent.orders
      rw [List.map_cons, List.flatMap_cons, List.length_append, packetBytes, List.flatMap_cons,
        List.length_append, WireBlock.bytes, List.length_append, sent.length_infoBytes,
        SnapshotBlock.records, List.length_cons, List.length_map, WireBlock.block, List.length_map,
        sizeofSnapshotInfo]
      rw [packetBytes] at inductionHypothesis
      omega

end HftAlgorithms
