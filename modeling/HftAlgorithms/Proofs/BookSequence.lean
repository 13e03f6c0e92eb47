/-
Module: HftAlgorithms.Proofs.BookSequence
Purpose: A book changes together with its sequence number, unless a trade is of more
  than the order it is about has left.
Trusted boundary: none
Main exports: OrderBook.SameLevels, OrderBook.SameAs, OrderBook.OverTrades,
  OrderBook.lastSeqNum_next, OrderBook.changes_with_sequence_number
-/
import HftAlgorithms.Proofs.OrderLife

namespace HftAlgorithms

open FiniteMap

namespace OrderBook

/-- The orders and both level maps are as they were. -/
def SameLevels (book after : OrderBook) : Prop :=
  after.orders = book.orders ∧ after.bids = book.bids ∧ after.asks = book.asks

/-- So is the sequence number. -/
def SameAs (book after : OrderBook) : Prop :=
  book.SameLevels after ∧ after.lastSeqNum = book.lastSeqNum

/-- A trade of an order of the book's own symbol, of more than is left of it. -/
def OverTrades (book : OrderBook) : BookMsg → Prop
  | .trade msg => ∃ info, book.orders.lookup msg.orderId = some info ∧
      info.symbol = book.symbol ∧ info.quantity < msg.quantity
  | _ => False

@[simp] theorem lastSeqNum_setLevels (book : OrderBook) (side : BookSide) (levels : Levels) :
    (book.setLevels side levels).lastSeqNum = book.lastSeqNum := by
  cases side <;> rfl

/-- A trade of too much drops the order and leaves the sequence number behind. -/
theorem next_of_overTrades {book : OrderBook} {msg : BookMsg} (exceeds : book.OverTrades msg) :
    (book.next msg).orders = book.orders.erase msg.orderId ∧
      (book.next msg).lastSeqNum = book.lastSeqNum := by
  cases msg with
  | trade msg =>
      rcases exceeds with ⟨info, found, own, more⟩
      have dropped : book.next (.trade msg) = (book.dropOrder msg.orderId info).1 := by
        simp [next, handle, handleTrade, found, own, more]
      rw [dropped]
      exact ⟨orders_dropOrder book msg.orderId info, by simp [dropOrder, removeFromPriceLevel]⟩
  | newOrder msg => exact exceeds.elim
  | deleteOrder msg => exact exceeds.elim
  | modifyOrder msg => exact exceeds.elim

/-- Every other message that a book takes brings its sequence number. -/
theorem lastSeqNum_next {book : OrderBook} {msg : BookMsg} (takes : book.Takes msg)
    (within : ¬ book.OverTrades msg) : (book.next msg).lastSeqNum = msg.seqNum := by
  cases msg with
  | newOrder msg =>
      have stored := handleNewOrder_of_accepts takes
      simp [next, handle, stored, BookMsg.seqNum]
  | deleteOrder msg =>
      rcases takes with ⟨info, found, own⟩
      have found : book.orders.lookup msg.orderId = some info := found
      simp [next, handle, handleDeleteOrder, found, own, BookMsg.seqNum]
  | modifyOrder msg =>
      rcases takes with ⟨info, found, own⟩
      have found : book.orders.lookup msg.orderId = some info := found
      simp [next, handle, handleModifyOrder, found, own, BookMsg.seqNum]
  | trade msg =>
      rcases takes with ⟨info, found, own⟩
      have found : book.orders.lookup msg.orderId = some info := found
      have enough : ¬ info.quantity < msg.quantity := fun more => within ⟨info, found, own, more⟩
      simp [next, handle, handleTrade, found, own, enough, BookMsg.seqNum]

/-- An order that is dropped was there before. -/
theorem not_sameLevels_of_overTrades {book : OrderBook} {msg : BookMsg}
    (exceeds : book.OverTrades msg) : ¬ book.SameLevels (book.next msg) := by
  rintro ⟨orders, -, -⟩
  rw [(next_of_overTrades exceeds).1] at orders
  cases msg with
  | trade msg =>
      rcases exceeds with ⟨info, found, -, -⟩
      have gone : (book.orders.erase msg.orderId).lookup msg.orderId = none := by simp
      have kept : (book.orders.erase msg.orderId).lookup msg.orderId = some info := by
        simpa [BookMsg.orderId] using (congrArg (Finmap.lookup msg.orderId) orders).trans found
      rw [gone] at kept
      cases kept
  | newOrder msg => exact exceeds.elim
  | deleteOrder msg => exact exceeds.elim
  | modifyOrder msg => exact exceeds.elim

/-- A handler leaves the book as it is or sets its sequence number to the message's; whatever it
changes, it changes together with the sequence number.  Just a trade of too much does not, and then
only a number that the book had already can hide it. -/
theorem changes_with_sequence_number (book : OrderBook) (msg : BookMsg) :
    (book.SameAs (book.next msg) ∨ (book.next msg).lastSeqNum = msg.seqNum ↔
        ¬ (book.OverTrades msg ∧ book.lastSeqNum ≠ msg.seqNum)) ∧
      ((¬ book.SameLevels (book.next msg) → (book.next msg).lastSeqNum = msg.seqNum) ↔
        ¬ (book.OverTrades msg ∧ book.lastSeqNum ≠ msg.seqNum)) := by
  by_cases exceeds : book.OverTrades msg
  · have changed := not_sameLevels_of_overTrades exceeds
    have behind := (next_of_overTrades exceeds).2
    have differs : ¬ book.SameAs (book.next msg) := fun same => changed same.1
    simp [exceeds, changed, differs, behind]
  · by_cases takes : book.Takes msg
    · simp [exceeds, lastSeqNum_next takes exceeds]
    · have unchanged := next_of_not_takes takes
      have sameLevels : book.SameLevels book := ⟨rfl, rfl, rfl⟩
      have same : book.SameAs book := ⟨sameLevels, rfl⟩
      simp [exceeds, unchanged, same, sameLevels]

/-- A book for symbol 1 with ten lots resting under id 7, as of message 5. -/
def restingTen : OrderBook :=
  (empty 1).next (.newOrder ⟨⟨5, .NEW_ORDER⟩, 7, 1, .BUY, 10, 100⟩)

/-- Message 6 trades eleven of the ten lots: the order is gone, the sequence number still 5. -/
theorem not_changes_with_sequence_number :
    ¬ restingTen.SameAs (restingTen.next (.trade ⟨⟨6, .TRADE⟩, 7, 11⟩)) ∧
      (restingTen.next (.trade ⟨⟨6, .TRADE⟩, 7, 11⟩)).lastSeqNum ≠ 6 := by
  have exceeds : restingTen.OverTrades (.trade ⟨⟨6, .TRADE⟩, 7, 11⟩) :=
    ⟨⟨100, 10, .BUY, 1⟩, by decide, by decide, by decide⟩
  have behind := (next_of_overTrades exceeds).2
  refine ⟨fun same => not_sameLevels_of_overTrades exceeds same.1, ?_⟩
  rw [behind]
  decide

end OrderBook

end HftAlgorithms
