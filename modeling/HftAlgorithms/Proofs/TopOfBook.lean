/-
Module: HftAlgorithms.Proofs.TopOfBook
Purpose: The best prices of a book and the quantities there are those of its
  resting orders, and 0 means an empty side, as long as no order is stored or
  modified to a price of 0, a quantity of 0 or an invalid side.
Trusted boundary: none
Main exports: OrderBook.RestsAt, OrderBook.TopOf, OrderBook.Quoted,
  OrderBook.Quoted.next, OrderBook.TopBacked, OrderBook.top_backed_of_quotes
-/
import HftAlgorithms.Proofs.BookLevels
import Mathlib.Order.Bounds.Basic

namespace HftAlgorithms

open FiniteMap StateMachine

/-- A valid side, something left, and a price that is not the marker of an empty side. -/
def OrderInfo.Quotable (info : OrderInfo) : Prop :=
  (info.side = .BUY ∨ info.side = .SELL) ∧ info.quantity ≠ 0 ∧ 0 < info.price

/-- Bids are best when highest, asks when lowest. -/
def BookSide.IsBest : BookSide → Set Int32 → Int32 → Prop
  | .bid => IsGreatest
  | .ask => IsLeast

theorem BookSide.IsBest.mem {side : BookSide} {prices : Set Int32} {price : Int32}
    (best : side.IsBest prices price) : price ∈ prices := by
  cases side with
  | bid => exact best.1
  | ask => exact best.1

namespace OrderBook

/-! ### Where orders rest -/

/-- Some order rests on the side at the price. -/
def RestsAt (book : OrderBook) (side : BookSide) (price : Int32) : Prop :=
  ∃ id info, book.orders.lookup id = some info ∧ info.side.bookSide = side ∧ info.price = price

/-- `get_best_bid_price` or `get_best_ask_price`. -/
def bestPrice (book : OrderBook) : BookSide → Int32
  | .bid => book.getBestBidPrice
  | .ask => book.getBestAskPrice

/-- `get_best_bid_qty` or `get_best_ask_qty`. -/
def bestQty (book : OrderBook) : BookSide → UInt32
  | .bid => book.getBestBidQty
  | .ask => book.getBestAskQty

/-- The top of one side as its resting orders have it: the best of their prices and what rests
there in all, or 0 and 0 where none rests. -/
def TopOf (book : OrderBook) (side : BookSide) (price : Int32) (quantity : UInt32) : Prop :=
  ((∀ other, ¬ book.RestsAt side other) ∧ price = 0 ∧ quantity = 0) ∨
    (side.IsBest {other | book.RestsAt side other} price ∧
      quantity.toNat = book.restingQuantity side price)

/-- Every level is the sum of its orders, and every order is quotable. -/
structure Quoted (book : OrderBook) : Prop where
  sound : book.Sound
  quotable : ∀ id info, book.orders.lookup id = some info → info.Quotable

theorem quoted_empty (symbol : UInt32) : (empty symbol).Quoted := by
  refine ⟨sound_empty symbol, ?_⟩
  intro id info found
  cases found

/-- There is a level exactly where orders rest. -/
theorem Quoted.mem_keys_iff {book : OrderBook} (quoted : book.Quoted) (side : BookSide)
    (price : Int32) : price ∈ (book.levels side).keys ↔ book.RestsAt side price := by
  have sum := quoted.sound.aggregated side price
  rw [Finmap.mem_keys, Finmap.mem_iff]
  constructor
  · rintro ⟨quantity, level⟩
    have nonzero : quantity ≠ 0 := fun zero => quoted.sound.noEmpty side price (zero ▸ level)
    rw [levelQuantity, level, Option.getD_some] at sum
    have rests : book.restingQuantity side price ≠ 0 := by
      rw [← sum]
      exact fun zero => nonzero (UInt32.toNat_inj.mp zero)
    obtain ⟨id, info, found, weighs⟩ := exists_of_sumBy_ne_zero rests
    rw [OrderInfo.weightAt] at weighs
    split at weighs
    · rename_i here
      exact ⟨id, info, found, here⟩
    · exact absurd rfl weighs
  · rintro ⟨id, info, found, rfl, rfl⟩
    have holds := quoted.sound.aggregated.quantity_le found
    have nonzero := (quoted.quotable id info found).2.1
    cases level : (book.levels info.side.bookSide).lookup info.price with
    | some quantity => exact ⟨quantity, rfl⟩
    | none =>
        rw [levelQuantity, level] at holds
        exact absurd (UInt32.le_antisymm holds UInt32.zero_le) nonzero

/-- The best price is 0 for a side without levels. -/
theorem bestPrice_of_keys_empty {book : OrderBook} {side : BookSide}
    (noLevel : (book.levels side).keys = ∅) : book.bestPrice side = 0 := by
  cases side with
  | bid =>
      rw [levels] at noLevel
      rw [bestPrice, getBestBidPrice, noLevel]
      rfl
  | ask =>
      rw [levels] at noLevel
      rw [bestPrice, getBestAskPrice, noLevel]
      rfl

/-- Otherwise it is the best of the levels' prices. -/
theorem isBest_bestPrice {book : OrderBook} {side : BookSide}
    (nonempty : (book.levels side).keys.Nonempty) :
    side.IsBest {price | price ∈ (book.levels side).keys} (book.bestPrice side) := by
  cases side with
  | bid =>
      obtain ⟨highest, isMax⟩ := Finset.max_of_nonempty nonempty
      rw [levels] at isMax
      rw [bestPrice, getBestBidPrice, isMax]
      exact ⟨Finset.mem_of_max isMax, fun price member => Finset.le_max_of_eq member isMax⟩
  | ask =>
      obtain ⟨lowest, isMin⟩ := Finset.min_of_nonempty nonempty
      rw [levels] at isMin
      rw [bestPrice, getBestAskPrice, isMin]
      exact ⟨Finset.mem_of_min isMin, fun price member => Finset.min_le_of_eq member isMin⟩

/-- The best quantity is that of the best level, if there is one. -/
theorem bestQty_eq (book : OrderBook) (side : BookSide) :
    book.bestQty side =
      if (book.levels side).keys = ∅ then 0 else book.levelQuantity side (book.bestPrice side) := by
  cases side <;> rfl

/-- The top of a quoted book is that of its resting orders. -/
theorem Quoted.topOf {book : OrderBook} (quoted : book.Quoted) (side : BookSide) :
    book.TopOf side (book.bestPrice side) (book.bestQty side) := by
  rw [bestQty_eq]
  rcases Finset.eq_empty_or_nonempty (book.levels side).keys with noLevel | nonempty
  · left
    refine ⟨?_, bestPrice_of_keys_empty noLevel, if_pos noLevel⟩
    intro price rests
    rw [← quoted.mem_keys_iff, noLevel] at rests
    exact absurd rests (Finset.notMem_empty price)
  · right
    have best := isBest_bestPrice nonempty
    simp only [quoted.mem_keys_iff] at best
    refine ⟨best, ?_⟩
    rw [if_neg nonempty.ne_empty]
    exact quoted.sound.aggregated side _

/-- A quoted price is never the marker. -/
theorem Quoted.ne_zero_of_restsAt {book : OrderBook} (quoted : book.Quoted) {side : BookSide}
    {price : Int32} (rests : book.RestsAt side price) : price ≠ 0 := by
  obtain ⟨id, info, found, -, rfl⟩ := rests
  exact (ne_of_gt (quoted.quotable id info found).2.2)

/-- A best price is 0 exactly when no order rests on its side. -/
theorem Quoted.topOf_zero_iff {book : OrderBook} (quoted : book.Quoted) {side : BookSide}
    {price : Int32} {quantity : UInt32} (top : book.TopOf side price quantity) :
    price = 0 ↔ ∀ other, ¬ book.RestsAt side other := by
  rcases top with ⟨noOrder, zero, -⟩ | ⟨best, -⟩
  · exact ⟨fun _ => noOrder, fun _ => zero⟩
  · have rests : book.RestsAt side price := best.mem
    constructor
    · intro zero
      exact absurd zero (quoted.ne_zero_of_restsAt rests)
    · intro noOrder
      exact absurd rests (noOrder price)

/-! ### What is claimed of every state -/

/-- Every resting order could have been stored, no level is empty, and the best prices and
quantities are those of the resting orders, with 0 for a side without orders and for no other. -/
structure TopBacked (book : OrderBook) : Prop where
  storable : ∀ id info, book.orders.lookup id = some info → info.Storable
  levels : ∀ side price quantity, (book.levels side).lookup price = some quantity → 0 < quantity
  best : ∀ side price, book.RestsAt side price →
    side.IsBest {other | book.RestsAt side other} (book.bestPrice side) ∧
      (book.bestQty side).toNat = book.restingQuantity side (book.bestPrice side)
  marker : ∀ side, book.bestPrice side = 0 ↔ ∀ price, ¬ book.RestsAt side price

/-- An order that the message stores or changes is quotable.  The handler of a NEW_ORDER checks
all but a price of 0; that of a MODIFY_ORDER checks nothing. -/
def Quotes (book : OrderBook) : BookMsg → Prop
  | .newOrder msg => book.Accepts msg → 0 < msg.price
  | .modifyOrder msg => book.Knows msg.orderId →
      (msg.side = .BUY ∨ msg.side = .SELL) ∧ msg.quantity ≠ 0 ∧ 0 < msg.price
  | .deleteOrder _ => True
  | .trade _ => True

theorem Quoted.topBacked {book : OrderBook} (quoted : book.Quoted) : book.TopBacked where
  storable := by
    intro id info found
    obtain ⟨side, quantity, price⟩ := quoted.quotable id info found
    exact ⟨side, quantity, le_of_lt price⟩
  levels := by
    intro side price quantity level
    apply UInt32.pos_iff_ne_zero.mpr
    intro zero
    exact quoted.sound.noEmpty side price (zero ▸ level)
  best := by
    intro side price rests
    rcases quoted.topOf side with ⟨noOrder, -⟩ | top
    · exact absurd rests (noOrder price)
    · exact top
  marker side := quoted.topOf_zero_iff (quoted.topOf side)

/-! ### Steps -/

/-- What every entry has, every entry has after a message, if the entries that the message
stores, changes and reduces have it. -/
theorem entries_next {keep : OrderInfo → Prop} {book : OrderBook} {msg : BookMsg}
    (kept : ∀ id info, book.orders.lookup id = some info → keep info)
    (stores : ∀ order, msg = .newOrder order → book.Accepts order → keep order.info)
    (changes : ∀ change info, msg = .modifyOrder change → book.Knows change.orderId →
      keep info → keep (change.change info))
    (reduces : ∀ info quantity, keep info → info.quantity - quantity ≠ 0 →
      keep (info.reduced quantity)) :
    ∀ id info, (book.next msg).orders.lookup id = some info → keep info := by
  intro id info found
  by_cases takes : book.Takes msg
  swap
  · rw [next_of_not_takes takes] at found
    exact kept id info found
  have inserted : ∀ {key : UInt64} {entry : OrderInfo}, keep entry →
      (book.orders.insert key entry).lookup id = some info → keep info := by
    intro key entry keeps lookup
    rw [lookup_insert_eq] at lookup
    split at lookup
    · cases lookup
      exact keeps
    · exact kept id info lookup
  have effect := book.effect_next msg
  generalize book.next msg = after at effect found
  cases effect with
  | ignored _ ignores => exact absurd takes ignores
  | stored order accepts =>
      change (book.storeOrder order.orderId order.info).orders.lookup id = some info at found
      rw [orders_storeOrder] at found
      exact inserted (stores order rfl accepts) found
  | dropped _ dropped seqNum rested _ =>
      change (book.dropOrder msg.orderId dropped).1.orders.lookup id = some info at found
      rw [orders_dropOrder] at found
      exact kept id info (lookup_of_lookup_erase found)
  | replaced change old rested =>
      change (storeOrder _ _ _).orders.lookup id = some info at found
      rw [orders_storeOrder, orders_removeFromPriceLevel] at found
      exact inserted (changes change old rfl takes (kept _ old rested)) found
  | reduced trade old rested le =>
      dsimp only at found
      split at found
      · exact kept id info (lookup_of_lookup_erase found)
      · rename_i remains
        exact inserted (reduces old trade.quantity (kept _ old rested) remains) found

theorem Quoted.next {book : OrderBook} (quoted : book.Quoted) {msg : BookMsg}
    (quotes : book.Quotes msg) (fits : (book.next msg).SumsFit) : (book.next msg).Quoted := by
  by_cases takes : book.Takes msg
  swap
  · rw [next_of_not_takes takes]
    exact quoted
  have leaves : msg.LeavesQuantity := by
    cases msg with
    | newOrder order => trivial
    | deleteOrder order => trivial
    | modifyOrder change => exact (quotes takes).2.1
    | trade trade => trivial
  refine ⟨quoted.sound.next leaves fits, ?_⟩
  apply entries_next quoted.quotable
  · rintro order rfl accepts
    exact ⟨accepts.2.2.1, accepts.2.2.2.1, quotes accepts⟩
  · rintro change info rfl knows _
    exact quotes knows
  · intro info quantity quotable remains
    exact ⟨quotable.1, remains, quotable.2.2⟩

/-! ### Runs -/

/-- From an empty book, every message sequence that stores and changes quotable orders only, and
whose level sums fit in 32 bits, keeps the top of the book backed by resting orders. -/
theorem top_backed_of_quotes (symbol : UInt32) {msgs : List BookMsg}
    (fits : ∀ earlier, earlier <+: msgs → (earlier.foldl next (empty symbol)).SumsFit)
    (quotes : Along next Quotes (empty symbol) msgs) :
    ∀ earlier, earlier <+: msgs → (earlier.foldl next (empty symbol)).TopBacked := by
  have run := quotes.and (along_of_prefixes fits)
  intro earlier isPrefix
  have quoted : (earlier.foldl next (empty symbol)).Quoted := by
    apply invariant_everywhere _ (quoted_empty symbol) run earlier isPrefix
    intro book msg quoted allowed
    exact quoted.next allowed.1 allowed.2
  exact quoted.topBacked

/-- A bid and an ask, a new price for the bid, and a trade of half the ask. -/
def quotedMessages : List BookMsg :=
  [.newOrder ⟨⟨1, .NEW_ORDER⟩, 10, 3, .BUY, 5, 100⟩,
   .newOrder ⟨⟨2, .NEW_ORDER⟩, 11, 3, .SELL, 4, 105⟩,
   .modifyOrder ⟨⟨3, .MODIFY_ORDER⟩, 10, .BUY, 7, 101⟩,
   .trade ⟨⟨4, .TRADE⟩, 11, 2⟩]

theorem top_backed_of_quotes_quotedMessages :
    (quotedMessages.foldl next (empty 3)).TopBacked := by
  refine top_backed_of_quotes 3 ?_ ?_ quotedMessages (List.prefix_refl _)
  · have totals : ∀ earlier ∈ quotedMessages.inits,
        sumBy (fun _ info => info.quantity.toNat) (earlier.foldl next (empty 3)).orders <
          2 ^ 32 := by
      decide
    intro earlier isPrefix
    exact sumsFit_of_total (totals earlier ((List.mem_inits _ _).mpr isPrefix))
  · exact ⟨fun _ => by decide, fun _ => by decide, fun _ => by decide, trivial, trivial⟩

/-- A bid, modified to nothing. -/
def emptiedBid : List BookMsg :=
  [.newOrder ⟨⟨1, .NEW_ORDER⟩, 10, 3, .BUY, 5, 100⟩,
   .modifyOrder ⟨⟨2, .MODIFY_ORDER⟩, 10, .BUY, 0, 100⟩]

/-- An ask at the price that means there is none. -/
def freeAsk : List BookMsg :=
  [.newOrder ⟨⟨1, .NEW_ORDER⟩, 10, 3, .SELL, 5, 0⟩]

/-- The book keeps a bid level of quantity 0 at 100, and reports 0 for a side with an order. -/
theorem emptiedBid_freeAsk_not_backed :
    (∀ earlier, earlier <+: emptiedBid → (earlier.foldl next (empty 3)).SumsFit) ∧
      ¬ (emptiedBid.foldl next (empty 3)).TopBacked ∧
      (∀ earlier, earlier <+: freeAsk → (earlier.foldl next (empty 3)).SumsFit) ∧
      ¬ (freeAsk.foldl next (empty 3)).TopBacked := by
  have totals : ∀ earlier ∈ emptiedBid.inits ++ freeAsk.inits,
      sumBy (fun _ info => info.quantity.toNat) (earlier.foldl next (empty 3)).orders < 2 ^ 32 := by
    decide
  refine ⟨?_, ?_, ?_, ?_⟩
  · intro earlier isPrefix
    have member : earlier ∈ emptiedBid.inits := (List.mem_inits _ _).mpr isPrefix
    exact sumsFit_of_total (totals earlier (List.mem_append_left _ member))
  · intro backed
    have level : ((emptiedBid.foldl next (empty 3)).levels .bid).lookup 100 = some 0 := by decide
    exact absurd (backed.levels .bid 100 0 level) (by decide)
  · intro earlier isPrefix
    have member : earlier ∈ freeAsk.inits := (List.mem_inits _ _).mpr isPrefix
    exact sumsFit_of_total (totals earlier (List.mem_append_right _ member))
  · intro backed
    have zero : (freeAsk.foldl next (empty 3)).bestPrice .ask = 0 := by decide
    have rests : (freeAsk.foldl next (empty 3)).RestsAt .ask 0 :=
      ⟨10, ⟨0, 5, .SELL, 3⟩, by decide, rfl, rfl⟩
    exact (backed.marker .ask).mp zero 0 rests

end OrderBook

end HftAlgorithms
