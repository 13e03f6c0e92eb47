/-
Module: HftAlgorithms.Proofs.BookLevels
Purpose: Books whose level maps are determined by their orders, and how much a
  message can bring into a book.
Trusted boundary: none
Main exports: OrderBook.NoEmptyLevel, OrderBook.Sound, OrderBook.SameBook,
  OrderBook.SameBook.tops, OrderBook.Sound.sameBook, OrderBook.totalQuantity_next_le
-/
import HftAlgorithms.Proofs.BookAggregation
import HftAlgorithms.Proofs.OrderLife

namespace HftAlgorithms

open FiniteMap

namespace OrderBook

/-! ### Level maps

Aggregated books with the same orders have the same level quantities.  The maps can still differ
in a level that stands at zero, which a MODIFY_ORDER to quantity zero opens and the next removal
from the level closes. -/

/-- No level stands at zero. -/
def NoEmptyLevel (book : OrderBook) : Prop :=
  ∀ side price, (book.levels side).lookup price ≠ some 0

theorem takeFromLevel_ne_zero {levels : Levels} (noEmpty : ∀ price, levels.lookup price ≠ some 0)
    (price : Int32) (quantity : UInt32) (other : Int32) :
    (takeFromLevel levels price quantity).1.lookup other ≠ some 0 := by
  unfold takeFromLevel
  split
  · exact noEmpty other
  · split
    · exact fun zero => noEmpty other (lookup_of_lookup_erase zero)
    · split
      · exact fun zero => noEmpty other (lookup_of_lookup_erase zero)
      · rename_i remains
        rw [lookup_insert_eq]
        split
        · exact fun zero => remains (Option.some.inj zero)
        · exact noEmpty other

theorem NoEmptyLevel.remove {book : OrderBook} (noEmpty : book.NoEmptyLevel) (side : Side)
    (price : Int32) (quantity : UInt32) :
    (book.removeFromPriceLevel side price quantity).1.NoEmptyLevel := by
  intro otherSide otherPrice
  rw [removeFromPriceLevel, levels_setLevels]
  split
  · exact takeFromLevel_ne_zero (noEmpty side.bookSide) price quantity otherPrice
  · exact noEmpty otherSide otherPrice

/-- Storing an order raises its own level and no other. -/
theorem lookup_levels_storeOrder (book : OrderBook) (id : UInt64) (info : OrderInfo)
    (side : BookSide) (price : Int32) :
    ((book.storeOrder id info).levels side).lookup price =
      if info.side.bookSide = side ∧ info.price = price then
        some (((book.levels side).lookup price).getD 0 + info.quantity)
      else (book.levels side).lookup price := by
  rw [storeOrder, addToPriceLevel, levels_setLevels]
  by_cases own : info.side.bookSide = side
  · subst own
    rw [if_pos rfl, addToLevel, lookup_insert_eq]
    by_cases here : price = info.price
    · rw [if_pos here, if_pos ⟨rfl, here.symm⟩, here]
      cases info.side.bookSide <;> rfl
    · rw [if_neg here, if_neg fun both => here both.2.symm]
      cases info.side.bookSide <;> rfl
  · rw [if_neg fun same => own same.symm, if_neg fun both => own both.1]
    cases side <;> rfl

/-- The level of a stored order holds at least that order. -/
theorem NoEmptyLevel.store {book : OrderBook} (noEmpty : book.NoEmptyLevel) {id : UInt64}
    {info : OrderInfo} (nonzero : info.quantity ≠ 0)
    (aggregated : (book.storeOrder id info).Aggregated) :
    (book.storeOrder id info).NoEmptyLevel := by
  have stored : (book.storeOrder id info).orders.lookup id = some info := by
    rw [storeOrder, orders_addToPriceLevel, lookup_insert_eq, if_pos rfl]
  have holds := aggregated.quantity_le stored
  intro side price
  by_cases here : info.side.bookSide = side ∧ info.price = price
  · obtain ⟨rfl, rfl⟩ := here
    intro empty
    rw [levelQuantity, empty] at holds
    exact nonzero (UInt32.le_antisymm holds UInt32.zero_le)
  · rw [lookup_levels_storeOrder, if_neg here]
    exact noEmpty side price

end OrderBook

/-- A MODIFY_ORDER leaves a quantity. -/
def BookMsg.LeavesQuantity : BookMsg → Prop
  | .modifyOrder msg => msg.quantity ≠ 0
  | _ => True

namespace OrderBook

theorem noEmptyLevel_next {book : OrderBook} {msg : BookMsg} (noEmpty : book.NoEmptyLevel)
    (leaves : msg.LeavesQuantity) (aggregated : (book.next msg).Aggregated) :
    (book.next msg).NoEmptyLevel := by
  have effect := book.effect_next msg
  generalize book.next msg = after at effect aggregated ⊢
  cases effect with
  | ignored _ _ => exact noEmpty
  | stored msg accepts => exact noEmpty.store accepts.2.2.2.1 aggregated
  | dropped _ info seqNum found _ => exact noEmpty.remove _ _ _
  | replaced msg info found => exact (noEmpty.remove _ _ _).store leaves aggregated
  | reduced msg info found le => exact noEmpty.remove _ _ _

/-- The orders determine the level maps. -/
theorem levels_eq_of_orders_eq {first second : OrderBook} (aggregated : first.Aggregated)
    (aggregatedToo : second.Aggregated) (noEmpty : first.NoEmptyLevel)
    (noEmptyToo : second.NoEmptyLevel) (orders : first.orders = second.orders) (side : BookSide) :
    first.levels side = second.levels side := by
  apply Finmap.ext_lookup
  intro price
  have same : first.levelQuantity side price = second.levelQuantity side price := by
    rw [← UInt32.toNat_inj, aggregated, aggregatedToo, restingQuantity, restingQuantity, orders]
  rw [levelQuantity, levelQuantity] at same
  have here := noEmpty side price
  have hereToo := noEmptyToo side price
  cases levelHere : (first.levels side).lookup price with
  | none =>
      cases levelThere : (second.levels side).lookup price with
      | none => rfl
      | some quantity =>
          rw [levelHere, levelThere] at same
          rw [levelThere] at hereToo
          exact absurd (congrArg some same.symm) hereToo
  | some quantity =>
      cases levelThere : (second.levels side).lookup price with
      | none =>
          rw [levelHere, levelThere] at same
          rw [levelHere] at here
          exact absurd (congrArg some same) here
      | some other =>
          rw [levelHere, levelThere] at same
          exact congrArg some same

theorem noEmptyLevel_empty (symbol : UInt32) : (empty symbol).NoEmptyLevel := by
  intro side price found
  cases side <;> cases found

/-! ### Books that the orders determine -/

/-- The same orders and price levels; `last_seq_num_`, which nothing reads, is left out. -/
structure SameBook (first second : OrderBook) : Prop where
  orders : first.orders = second.orders
  bids : first.bids = second.bids
  asks : first.asks = second.asks

/-- The level maps are all that the top of the book reads. -/
theorem SameBook.tops {first second : OrderBook} (same : first.SameBook second) :
    first.getBestBidPrice = second.getBestBidPrice ∧ first.getBestBidQty = second.getBestBidQty ∧
      first.getBestAskPrice = second.getBestAskPrice ∧
      first.getBestAskQty = second.getBestAskQty := by
  obtain ⟨-, bids, asks⟩ := same
  refine ⟨?_, ?_, ?_, ?_⟩
  · rw [getBestBidPrice, getBestBidPrice, bids]
  · rw [getBestBidQty, getBestBidQty, getBestBidPrice, getBestBidPrice, bids]
  · rw [getBestAskPrice, getBestAskPrice, asks]
  · rw [getBestAskQty, getBestAskQty, getBestAskPrice, getBestAskPrice, asks]

/-- Levels that the orders determine. -/
structure Sound (book : OrderBook) : Prop where
  aggregated : book.Aggregated
  noEmpty : book.NoEmptyLevel

theorem sound_empty (symbol : UInt32) : (empty symbol).Sound :=
  ⟨aggregated_empty symbol, noEmptyLevel_empty symbol⟩

theorem Sound.next {book : OrderBook} (sound : book.Sound) {msg : BookMsg}
    (leaves : msg.LeavesQuantity) (fits : (book.next msg).SumsFit) : (book.next msg).Sound := by
  have aggregated : (book.next msg).Aggregated := (keepsLevels_handle sound.aggregated msg).1 fits
  exact ⟨aggregated, noEmptyLevel_next sound.noEmpty leaves aggregated⟩

theorem Sound.sameBook {first second : OrderBook} (sound : first.Sound) (soundToo : second.Sound)
    (orders : first.orders = second.orders) : first.SameBook second := by
  have levels := levels_eq_of_orders_eq sound.aggregated soundToo.aggregated sound.noEmpty
    soundToo.noEmpty orders
  exact ⟨orders, levels .bid, levels .ask⟩

/-- A NEW_ORDER takes nothing from a level. -/
theorem restingQuantity_le_newOrder (book : OrderBook) (msg : NewOrder) (side : BookSide)
    (price : Int32) :
    book.restingQuantity side price ≤ (book.next (.newOrder msg)).restingQuantity side price := by
  rw [next, handle]
  by_cases accepts : book.Accepts msg
  · rw [handleNewOrder_of_accepts accepts]
    change _ ≤ (book.storeOrder msg.orderId msg.info).restingQuantity side price
    rw [restingQuantity, restingQuantity, orders_storeOrder,
      sumBy_insert_of_lookup_none _ _ accepts.2.1]
    exact Nat.le_add_left _ _
  · rw [handleNewOrder_of_not_accepts accepts]

theorem restingQuantity_le_newOrders (orders : List NewOrder) (book : OrderBook) (side : BookSide)
    (price : Int32) :
    book.restingQuantity side price ≤
      ((orders.map BookMsg.newOrder).foldl next book).restingQuantity side price := by
  induction orders generalizing book with
  | nil => exact Nat.le_refl _
  | cons msg orders inductionHypothesis =>
      exact Nat.le_trans (restingQuantity_le_newOrder book msg side price)
        (inductionHypothesis (book.next (.newOrder msg)))

/-- NEW_ORDERs whose sums fit in the end have sums that fit all along. -/
theorem Sound.newOrders {orders : List NewOrder} {book : OrderBook} (sound : book.Sound)
    (fits : ((orders.map BookMsg.newOrder).foldl OrderBook.next book).SumsFit) :
    ((orders.map BookMsg.newOrder).foldl OrderBook.next book).Sound := by
  induction orders generalizing book with
  | nil => exact sound
  | cons msg orders inductionHypothesis =>
      have now : (book.next (.newOrder msg)).SumsFit := fun side price =>
        Nat.lt_of_le_of_lt (restingQuantity_le_newOrders orders _ side price) (fits side price)
      exact inductionHypothesis (sound.next trivial now) fits

end OrderBook

/-! ### Totals -/

/-- The quantity a message can bring into a book. -/
def BookMsg.brings : BookMsg → Nat
  | .newOrder msg => msg.quantity.toNat
  | .modifyOrder msg => msg.quantity.toNat
  | _ => 0

namespace OrderBook

/-- What rests in the whole book. -/
def totalQuantity (book : OrderBook) : Nat :=
  sumBy (fun _ info => info.quantity.toNat) book.orders

theorem totalQuantity_next_le (book : OrderBook) (msg : BookMsg) :
    (book.next msg).totalQuantity ≤ book.totalQuantity + msg.brings := by
  have effect := book.effect_next msg
  generalize book.next msg = after at effect ⊢
  have erased (id : UInt64) :
      sumBy (fun _ info => info.quantity.toNat) (book.orders.erase id) ≤ book.totalQuantity :=
    sumBy_erase_le _ _ _
  cases effect with
  | ignored _ _ => exact Nat.le_add_right _ _
  | stored msg accepts =>
      change sumBy _ (book.storeOrder msg.orderId msg.info).orders ≤ _
      rw [orders_storeOrder, sumBy_insert_of_lookup_none _ _ accepts.2.1, Nat.add_comm]
      exact Nat.le_refl _
  | dropped _ info seqNum found _ =>
      change sumBy _ (book.dropOrder msg.orderId info).1.orders ≤ _
      rw [orders_dropOrder]
      exact Nat.le_add_right_of_le (erased msg.orderId)
  | replaced msg info found =>
      change sumBy _ (storeOrder _ _ _).orders ≤ _
      rw [orders_storeOrder, sumBy_insert, orders_removeFromPriceLevel, Nat.add_comm]
      exact Nat.add_le_add_right (erased msg.orderId) _
  | reduced msg info found le =>
      rw [totalQuantity]
      dsimp only
      split
      · exact erased msg.orderId
      · have left := UInt32.toNat_sub_of_le _ _ le
        rw [sumBy_insert, OrderInfo.reduced, left, totalQuantity, sumBy_of_lookup _ found]
        omega

end OrderBook

end HftAlgorithms
