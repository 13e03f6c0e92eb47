/-
Module: HftAlgorithms.Proofs.FieldReads
Purpose: The fields that are listed as read of a message are all that decides what
  becomes of it: over two buffers that agree in these fields the listener does the
  same, branch by branch of the handlers.
Trusted boundary: none
Main exports: Extent.Agrees, Listener.afterMessage, OrderBook.next_newOrder_congr,
  Listener.dispatch_newOrder_congr, Listener.afterMessage_congr
-/
import HftAlgorithms.MarketData.PacketBytes
import Mathlib.Tactic.SplitIfs

namespace HftAlgorithms

open LittleEndian

/-! ### Buffers that agree -/

/-- Two buffers hold the same in a stretch. -/
def Extent.Agrees (buf other : Memory) (extent : Extent) : Prop :=
  ∀ index, extent.offset ≤ index → index < extent.offset + extent.width → buf index = other index

/-- What the `switch` makes of the buffer. -/
def Listener.afterMessage (listener : Listener) (buf : Memory) : Listener :=
  (readBookMsg buf).elim listener listener.dispatch

section Agreement

variable {buf other : Memory}

theorem readMsgType_congr {offset : Nat} (agrees : (msgTypeAt offset).Agrees buf other) :
    readMsgType buf offset = readMsgType other offset := by
  have byte := agrees (offset + 22) (Nat.le_refl _) (Nat.lt_succ_self _)
  rw [readMsgType, readMsgType, byte]

theorem readSeqNum_congr {offset : Nat} (agrees : (seqNumAt offset).Agrees buf other) :
    word buf (offset + 10) 4 = word other (offset + 10) 4 :=
  word_congr agrees

theorem readOrderId_congr {offset : Nat} (agrees : (orderIdAt offset).Agrees buf other) :
    word buf (offset + 23) 8 = word other (offset + 23) 8 :=
  word_congr agrees

/-- The book handler of a NEW_ORDER goes by the fields that it reads, whatever is in the rest. -/
theorem OrderBook.next_newOrder_congr {book : OrderBook} {offset : Nat}
    (agree : ∀ extent ∈ book.newOrderReads (readNewOrder buf offset) offset,
      extent.Agrees buf other) :
    book.next (.newOrder (readNewOrder buf offset)) =
      book.next (.newOrder (readNewOrder other offset)) := by
  have type := readMsgType_congr (agree (msgTypeAt offset) (by
    rw [newOrderReads]
    split_ifs <;> simp))
  by_cases typed : (readNewOrder buf offset).header.msgType = .NEW_ORDER
  · have sideRead := agree (NewOrder.sideAt offset) (by
      rw [newOrderReads, if_neg (not_not.mpr typed)]
      split_ifs <;> simp)
    have idRead := readOrderId_congr (agree (orderIdAt offset) (by
      rw [newOrderReads, if_neg (not_not.mpr typed)]
      split_ifs <;> simp))
    have side : (readNewOrder buf offset).side = (readNewOrder other offset).side :=
      congrArg Side.ofByte (sideRead _ (Nat.le_refl _) (Nat.lt_succ_self _))
    have id : (readNewOrder buf offset).orderId = (readNewOrder other offset).orderId :=
      congrArg UInt64.ofNat idRead
    have typedOther : (readNewOrder other offset).header.msgType = .NEW_ORDER :=
      type.symm.trans typed
    change (book.handleNewOrder _).1 = (book.handleNewOrder _).1
    rw [handleNewOrder, handleNewOrder, if_neg (not_not.mpr typed), if_neg (not_not.mpr typedOther),
      ← side, ← id]
    split
    · rfl
    rename_i valid
    split
    · rfl
    rename_i fresh
    have quantityRead := word_congr (agree (NewOrder.quantityAt offset) (by
      rw [newOrderReads, if_neg (not_not.mpr typed), if_neg valid, if_neg fresh]
      split_ifs <;> simp))
    have quantity : (readNewOrder buf offset).quantity = (readNewOrder other offset).quantity :=
      congrArg UInt32.ofNat quantityRead
    rw [← quantity]
    split
    · rfl
    rename_i some
    have priceRead := word_congr (agree (NewOrder.priceAt offset) (by
      rw [newOrderReads, if_neg (not_not.mpr typed), if_neg valid, if_neg fresh, if_neg some]
      split_ifs <;> simp))
    have price : (readNewOrder buf offset).price = (readNewOrder other offset).price :=
      congrArg (fun value => (UInt32.ofNat value).toInt32) priceRead
    rw [← price]
    split
    · rfl
    rename_i sound
    have all : book.newOrderReads (readNewOrder buf offset) offset =
        [msgTypeAt offset, NewOrder.sideAt offset, orderIdAt offset, NewOrder.quantityAt offset,
          NewOrder.priceAt offset, NewOrder.symbolAt offset, seqNumAt offset] := by
      rw [newOrderReads, if_neg (not_not.mpr typed), if_neg valid, if_neg fresh, if_neg some,
        if_neg sound]
    rw [all] at agree
    have seqNum := readSeqNum_congr (agree (seqNumAt offset) (by simp))
    have symbolRead := word_congr (agree (NewOrder.symbolAt offset) (by simp))
    have symbol : (readNewOrder buf offset).symbol = (readNewOrder other offset).symbol :=
      congrArg UInt32.ofNat symbolRead
    have header : (readNewOrder buf offset).header = (readNewOrder other offset).header := by
      simp [readNewOrder, readMdHeader, seqNum, type]
    rw [NewOrder.ext header id symbol side quantity price]
  · have typedOther : (readNewOrder other offset).header.msgType ≠ .NEW_ORDER :=
      fun isOrder => typed (type.trans isOrder)
    simp [next, handle, handleNewOrder, typed, typedOther]

/-! A message about an order that is not resting changes nothing. -/

section NotResting

variable {book : OrderBook}

theorem OrderBook.symbol_ne_of_not_rests {id : UInt64} (away : ¬ book.Rests id) {info : OrderInfo}
    (found : book.orders.lookup id = some info) : info.symbol ≠ book.symbol :=
  fun own => away ⟨info, found, own⟩

theorem OrderBook.next_deleteOrder_of_not_rests {msg : DeleteOrder}
    (away : ¬ book.Rests msg.orderId) : book.next (.deleteOrder msg) = book := by
  rw [next, handle, handleDeleteOrder]
  split
  · rfl
  · rename_i info found
    rw [if_pos (symbol_ne_of_not_rests away found)]

theorem OrderBook.next_modifyOrder_of_not_rests {msg : ModifyOrder}
    (away : ¬ book.Rests msg.orderId) : book.next (.modifyOrder msg) = book := by
  rw [next, handle, handleModifyOrder]
  split
  · rfl
  · rename_i info found
    rw [if_pos (symbol_ne_of_not_rests away found)]

theorem OrderBook.next_trade_of_not_rests {msg : Trade} (away : ¬ book.Rests msg.orderId) :
    book.next (.trade msg) = book := by
  rw [next, handle, handleTrade]
  split
  · rfl
  · rename_i info found
    rw [if_pos (symbol_ne_of_not_rests away found)]

end NotResting

section Routed

variable {book : OrderBook} (type : readMsgType buf 0 = readMsgType other 0)

include type

theorem OrderBook.next_deleteOrder_congr
    (agree : ∀ extent ∈ book.deleteOrderReads (readDeleteOrder buf), extent.Agrees buf other) :
    book.next (.deleteOrder (readDeleteOrder buf)) =
      book.next (.deleteOrder (readDeleteOrder other)) := by
  have id : (readDeleteOrder buf).orderId = (readDeleteOrder other).orderId :=
    congrArg UInt64.ofNat (readOrderId_congr (agree (orderIdAt 0) (by
      rw [deleteOrderReads]
      split_ifs <;> simp)))
  by_cases rests : book.Rests (readDeleteOrder buf).orderId
  · rw [deleteOrderReads, if_pos rests] at agree
    have seqNum := readSeqNum_congr (agree (seqNumAt 0) (by simp))
    have header : (readDeleteOrder buf).header = (readDeleteOrder other).header := by
      simp [readDeleteOrder, readMdHeader, seqNum, type]
    rw [DeleteOrder.ext header id]
  · rw [next_deleteOrder_of_not_rests rests]
    rw [id] at rests
    rw [next_deleteOrder_of_not_rests rests]

theorem OrderBook.next_modifyOrder_congr
    (agree : ∀ extent ∈ book.modifyOrderReads (readModifyOrder buf), extent.Agrees buf other) :
    book.next (.modifyOrder (readModifyOrder buf)) =
      book.next (.modifyOrder (readModifyOrder other)) := by
  have id : (readModifyOrder buf).orderId = (readModifyOrder other).orderId :=
    congrArg UInt64.ofNat (readOrderId_congr (agree (orderIdAt 0) (by
      rw [modifyOrderReads]
      split_ifs <;> simp)))
  by_cases rests : book.Rests (readModifyOrder buf).orderId
  · rw [modifyOrderReads, if_pos rests] at agree
    have seqNum := readSeqNum_congr (agree (seqNumAt 0) (by simp))
    have sideRead := agree (ModifyOrder.sideAt 0) (by simp)
    have quantityRead := word_congr (agree (ModifyOrder.quantityAt 0) (by simp))
    have priceRead := word_congr (agree (ModifyOrder.priceAt 0) (by simp))
    have header : (readModifyOrder buf).header = (readModifyOrder other).header := by
      simp [readModifyOrder, readMdHeader, seqNum, type]
    have side : (readModifyOrder buf).side = (readModifyOrder other).side :=
      congrArg Side.ofByte (sideRead 31 (by decide) (by decide))
    have quantity : (readModifyOrder buf).quantity = (readModifyOrder other).quantity :=
      congrArg UInt32.ofNat quantityRead
    have price : (readModifyOrder buf).price = (readModifyOrder other).price :=
      congrArg (fun value => (UInt32.ofNat value).toInt32) priceRead
    rw [ModifyOrder.ext header id side quantity price]
  · rw [next_modifyOrder_of_not_rests rests]
    rw [id] at rests
    rw [next_modifyOrder_of_not_rests rests]

theorem OrderBook.next_trade_congr
    (agree : ∀ extent ∈ book.tradeReads (readTrade buf), extent.Agrees buf other) :
    book.next (.trade (readTrade buf)) = book.next (.trade (readTrade other)) := by
  have id : (readTrade buf).orderId = (readTrade other).orderId :=
    congrArg UInt64.ofNat (readOrderId_congr (agree (orderIdAt 0) (by
      rw [tradeReads]
      split
      · simp
      · split_ifs <;> simp)))
  by_cases rests : book.Rests (readTrade buf).orderId
  · obtain ⟨info, found, own⟩ := rests
    rw [tradeReads, found] at agree
    simp only [if_neg (not_not.mpr own)] at agree
    have quantityRead := word_congr (agree (Trade.quantityAt 0) (by split_ifs <;> simp))
    have quantity : (readTrade buf).quantity = (readTrade other).quantity :=
      congrArg UInt32.ofNat quantityRead
    by_cases tooMuch : (readTrade buf).quantity > info.quantity
    · -- the rest of the record does not matter here
      change (book.handleTrade _).1 = (book.handleTrade _).1
      rw [handleTrade, handleTrade, ← id, ← quantity, found]
      simp only [if_neg (not_not.mpr own), if_pos tooMuch]
    · rw [if_neg tooMuch] at agree
      have seqNum := readSeqNum_congr (agree (seqNumAt 0) (by simp))
      have header : (readTrade buf).header = (readTrade other).header := by
        simp [readTrade, readMdHeader, seqNum, type]
      rw [Trade.ext header id quantity]
  · rw [next_trade_of_not_rests rests]
    rw [id] at rests
    rw [next_trade_of_not_rests rests]

end Routed

/-! ### The dispatch functions -/

theorem SymbolManager.onBookMsg_congr {manager : SymbolManager} {symbol : UInt32}
    {first second : BookMsg}
    (same : (manager.slots symbol).book.next first = (manager.slots symbol).book.next second) :
    manager.onBookMsg symbol first = manager.onBookMsg symbol second := by
  simp only [onBookMsg, same]

variable {listener : Listener}

theorem Listener.dispatch_newOrder_congr {offset : Nat}
    (agree : ∀ extent ∈ listener.dispatchReads offset (.newOrder (readNewOrder buf offset)),
      extent.Agrees buf other) :
    listener.dispatch (.newOrder (readNewOrder buf offset)) =
      listener.dispatch (.newOrder (readNewOrder other offset)) := by
  have symbolRead := word_congr (agree (NewOrder.symbolAt offset) (by simp [dispatchReads]))
  have idRead := readOrderId_congr (agree (orderIdAt offset) (by simp [dispatchReads]))
  have symbol : (readNewOrder buf offset).symbol = (readNewOrder other offset).symbol :=
    congrArg UInt32.ofNat symbolRead
  have id : (readNewOrder buf offset).orderId = (readNewOrder other offset).orderId :=
    congrArg UInt64.ofNat idRead
  have book := OrderBook.next_newOrder_congr fun extent listed =>
    agree extent (List.mem_append_right _ listed)
  have handled := SymbolManager.onBookMsg_congr book
  simp only [dispatch, dispatchNewOrder, SymbolManager.onNewOrder, ← symbol, ← id, handled]

section Routed

variable (type : readMsgType buf 0 = readMsgType other 0)

include type

theorem Listener.dispatch_deleteOrder_congr
    (agree : ∀ extent ∈ listener.dispatchReads 0 (.deleteOrder (readDeleteOrder buf)),
      extent.Agrees buf other) :
    listener.dispatch (.deleteOrder (readDeleteOrder buf)) =
      listener.dispatch (.deleteOrder (readDeleteOrder other)) := by
  have id : (readDeleteOrder buf).orderId = (readDeleteOrder other).orderId :=
    congrArg UInt64.ofNat (readOrderId_congr (agree (orderIdAt 0) List.mem_cons_self))
  rw [dispatch, dispatch, dispatchDeleteOrder, dispatchDeleteOrder, ← id]
  cases routed : listener.orderToSymbol.lookup (readDeleteOrder buf).orderId with
  | none => rfl
  | some symbol =>
      simp only [dispatchReads, routed] at agree
      have handled := SymbolManager.onBookMsg_congr (OrderBook.next_deleteOrder_congr type
        fun extent listed => agree extent (List.mem_cons_of_mem _ listed))
      simp only [SymbolManager.onDeleteOrder, handled]

theorem Listener.dispatch_modifyOrder_congr
    (agree : ∀ extent ∈ listener.dispatchReads 0 (.modifyOrder (readModifyOrder buf)),
      extent.Agrees buf other) :
    listener.dispatch (.modifyOrder (readModifyOrder buf)) =
      listener.dispatch (.modifyOrder (readModifyOrder other)) := by
  have id : (readModifyOrder buf).orderId = (readModifyOrder other).orderId :=
    congrArg UInt64.ofNat (readOrderId_congr (agree (orderIdAt 0) List.mem_cons_self))
  rw [dispatch, dispatch, dispatchModifyOrder, dispatchModifyOrder, ← id]
  cases routed : listener.orderToSymbol.lookup (readModifyOrder buf).orderId with
  | none => rfl
  | some symbol =>
      simp only [dispatchReads, routed] at agree
      have handled := SymbolManager.onBookMsg_congr (OrderBook.next_modifyOrder_congr type
        fun extent listed => agree extent (List.mem_cons_of_mem _ listed))
      simp only [SymbolManager.onModifyOrder, handled]

theorem Listener.dispatch_trade_congr
    (agree : ∀ extent ∈ listener.dispatchReads 0 (.trade (readTrade buf)),
      extent.Agrees buf other) :
    listener.dispatch (.trade (readTrade buf)) = listener.dispatch (.trade (readTrade other)) := by
  have id : (readTrade buf).orderId = (readTrade other).orderId :=
    congrArg UInt64.ofNat (readOrderId_congr (agree (orderIdAt 0) List.mem_cons_self))
  rw [dispatch, dispatch, dispatchTrade, dispatchTrade, ← id]
  cases routed : listener.orderToSymbol.lookup (readTrade buf).orderId with
  | none => rfl
  | some symbol =>
      simp only [dispatchReads, routed] at agree
      have handled := SymbolManager.onBookMsg_congr (OrderBook.next_trade_congr type
        fun extent listed => agree extent (List.mem_cons_of_mem _ listed))
      simp only [SymbolManager.onTrade, handled]

end Routed

/-- What becomes of a message depends on no byte but those of the fields that are read. -/
theorem Listener.afterMessage_congr {packet : RawPacket}
    (agree : ∀ extent ∈ listener.messageReads packet, extent.Agrees packet.buf other) :
    listener.afterMessage packet.buf = listener.afterMessage other := by
  have type := readMsgType_congr (agree (msgTypeAt 0) List.mem_cons_self)
  have dispatched : ∀ msg, readBookMsg packet.buf = some msg →
      ∀ extent ∈ listener.dispatchReads 0 msg, extent.Agrees packet.buf other := by
    intro msg typed extent listed
    apply agree
    simp only [messageReads, typed]
    exact List.mem_cons_of_mem _ listed
  rw [afterMessage, afterMessage]
  cases kind : readMsgType packet.buf 0 with
  | NEW_ORDER =>
      simp only [readBookMsg, ← type, kind] at dispatched ⊢
      exact dispatch_newOrder_congr (dispatched _ rfl)
  | DELETE_ORDER =>
      simp only [readBookMsg, ← type, kind] at dispatched ⊢
      exact dispatch_deleteOrder_congr type (dispatched _ rfl)
  | MODIFY_ORDER =>
      simp only [readBookMsg, ← type, kind] at dispatched ⊢
      exact dispatch_modifyOrder_congr type (dispatched _ rfl)
  | TRADE =>
      simp only [readBookMsg, ← type, kind] at dispatched ⊢
      exact dispatch_trade_congr type (dispatched _ rfl)
  | HEARTBEAT => simp only [readBookMsg, ← type, kind]
  | TRADE_SUMMARY => simp only [readBookMsg, ← type, kind]
  | SNAPSHOT_INFO => simp only [readBookMsg, ← type, kind]
  | unknown byte => simp only [readBookMsg, ← type, kind]

end Agreement

end HftAlgorithms
