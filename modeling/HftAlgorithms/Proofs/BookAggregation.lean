/-
Module: HftAlgorithms.Proofs.BookAggregation
Purpose: The price levels of a book are the exact sums of its resting orders, in
  every state a run of the four handlers reaches, as long as those sums fit in
  32 bits; hence no removal ever asks a level for more than it holds.
Trusted boundary: none
Main exports: OrderBook.levelQuantity, OrderBook.restingQuantity,
  OrderBook.Aggregated, OrderBook.levels_eq_resting_sums
-/
import HftAlgorithms.Lib.StateMachine
import HftAlgorithms.MarketData.OrderBook

namespace HftAlgorithms

open FiniteMap StateMachine

/-- What an order adds to the level of `side` at `price`. -/
def OrderInfo.weightAt (side : BookSide) (price : Int32) (info : OrderInfo) : Nat :=
  if info.side.bookSide = side ∧ info.price = price then info.quantity.toNat else 0

namespace OrderBook

/-- The quantity stored at a price level, 0 when the level is absent. -/
def levelQuantity (book : OrderBook) (side : BookSide) (price : Int32) : UInt32 :=
  ((book.levels side).lookup price).getD 0

/-- The exact sum of the remaining quantities of the orders on `side` at `price`. -/
def restingQuantity (book : OrderBook) (side : BookSide) (price : Int32) : Nat :=
  sumBy (fun _ info => info.weightAt side price) book.orders

/-- The level maps are all that `levelQuantity` reads. -/
theorem levelQuantity_congr {first second : OrderBook} (bids : first.bids = second.bids)
    (asks : first.asks = second.asks) (side : BookSide) (price : Int32) :
    first.levelQuantity side price = second.levelQuantity side price := by
  cases side with
  | bid => simp [levelQuantity, levels, bids]
  | ask => simp [levelQuantity, levels, asks]

/-- Every level stores exactly what rests there. -/
def Aggregated (book : OrderBook) : Prop :=
  ∀ side price, (book.levelQuantity side price).toNat = book.restingQuantity side price

/-- The exact sums fit in the 32 bits a level has. -/
def SumsFit (book : OrderBook) : Prop :=
  ∀ side price, book.restingQuantity side price < 2 ^ 32

/-! ### One level -/

theorem lookup_addToLevel (levels : Levels) (price other : Int32) (quantity : UInt32) :
    ((addToLevel levels price quantity).lookup other).getD 0 =
      (levels.lookup other).getD 0 + if other = price then quantity else 0 := by
  rw [addToLevel, lookup_insert_eq]
  by_cases same : other = price
  · subst other
    simp
  · simp [same]

/-- Taking no more than a level holds is a subtraction, and reports nothing. -/
theorem takeFromLevel_of_le {levels : Levels} {price : Int32} {quantity : UInt32}
    (le : quantity ≤ (levels.lookup price).getD 0) :
    (takeFromLevel levels price quantity).2 = none ∧
      ∀ other, ((takeFromLevel levels price quantity).1.lookup other).getD 0 =
        (levels.lookup other).getD 0 - if other = price then quantity else 0 := by
  cases found : levels.lookup price with
  | none =>
      rw [found] at le
      have nothing : quantity = 0 := UInt32.le_antisymm le (UInt32.zero_le)
      subst nothing
      simp [takeFromLevel, found]
  | some resting =>
      rw [found] at le
      have enough : ¬ resting < quantity := UInt32.not_lt.mpr le
      constructor
      · simp only [takeFromLevel, found, if_neg enough]
        split <;> rfl
      · intro other
        simp only [takeFromLevel, found, if_neg enough]
        by_cases emptied : resting - quantity = 0
        · rw [if_pos emptied, lookup_erase_eq]
          by_cases same : other = price
          · subst other
            simp [found, emptied]
          · simp [same]
        · rw [if_neg emptied, lookup_insert_eq]
          by_cases same : other = price
          · subst other
            simp [found]
          · simp [same]

/-! ### Both sides -/

theorem levelQuantity_addToPriceLevel (book : OrderBook) (side : Side) (price : Int32)
    (quantity : UInt32) (otherSide : BookSide) (otherPrice : Int32) :
    (book.addToPriceLevel side price quantity).levelQuantity otherSide otherPrice =
      book.levelQuantity otherSide otherPrice +
        if side.bookSide = otherSide ∧ price = otherPrice then quantity else 0 := by
  rw [levelQuantity, addToPriceLevel, levels_setLevels]
  by_cases same : otherSide = side.bookSide
  · subst otherSide
    rw [if_pos rfl, lookup_addToLevel]
    simp [levelQuantity, eq_comm]
  · have different : ¬ side.bookSide = otherSide := fun equal => same equal.symm
    simp [levelQuantity, same, different]

theorem removeFromPriceLevel_of_le {book : OrderBook} {side : Side} {price : Int32}
    {quantity : UInt32} (le : quantity ≤ book.levelQuantity side.bookSide price) :
    (book.removeFromPriceLevel side price quantity).2 = [] ∧
      ∀ otherSide otherPrice,
        (book.removeFromPriceLevel side price quantity).1.levelQuantity otherSide otherPrice =
          book.levelQuantity otherSide otherPrice -
            if side.bookSide = otherSide ∧ price = otherPrice then quantity else 0 := by
  obtain ⟨silent, left⟩ := takeFromLevel_of_le le
  constructor
  · simp [removeFromPriceLevel, silent]
  · intro otherSide otherPrice
    rw [levelQuantity, removeFromPriceLevel]
    simp only [levels_setLevels]
    by_cases same : otherSide = side.bookSide
    · subst otherSide
      rw [if_pos rfl, left]
      simp [levelQuantity, eq_comm]
    · have different : ¬ side.bookSide = otherSide := fun equal => same equal.symm
      simp [levelQuantity, same, different]

/-! ### One handler -/

/-- Adding a new order's quantity to its level keeps the sums exact, if they fit. -/
theorem toNat_level_add {level quantity : UInt32} {resting : Nat} {here : Prop} [Decidable here]
    (exact : level.toNat = resting)
    (fits : resting + (if here then quantity.toNat else 0) < 2 ^ 32) :
    (level + if here then quantity else 0).toNat =
      resting + if here then quantity.toNat else 0 := by
  by_cases holds : here
  · rw [if_pos holds] at fits
    rw [if_pos holds, if_pos holds, FixedWidth.toNat_add_of_lt (by omega), exact]
  · simp [holds, exact]

/-- Taking an order's quantity from its level keeps the sums exact. -/
theorem toNat_level_sub {level quantity : UInt32} {resting : Nat} {here : Prop} [Decidable here]
    (exact : level.toNat = resting + if here then quantity.toNat else 0) :
    (level - if here then quantity else 0).toNat = resting := by
  by_cases holds : here
  · rw [if_pos holds] at exact
    rw [if_pos holds, FixedWidth.toNat_sub_of_le (by omega)]
    omega
  · simpa [holds] using exact

/-- An aggregated level holds at least the quantity of each order at it. -/
theorem Aggregated.quantity_le {book : OrderBook} (aggregated : book.Aggregated) {id : UInt64}
    {info : OrderInfo} (found : book.orders.lookup id = some info) :
    info.quantity ≤ book.levelQuantity info.side.bookSide info.price := by
  have member : info.weightAt info.side.bookSide info.price ≤
      book.restingQuantity info.side.bookSide info.price :=
    weight_le_sumBy (fun _ entry => entry.weightAt info.side.bookSide info.price) found
  rw [UInt32.le_iff_toNat_le, aggregated]
  simpa [OrderInfo.weightAt] using member

/-- What rests at a level beside the order `id`. -/
def restBeside (book : OrderBook) (id : UInt64) (side : BookSide) (price : Int32) : Nat :=
  sumBy (fun _ info => info.weightAt side price) (book.orders.erase id)

theorem restingQuantity_of_lookup {book : OrderBook} {id : UInt64} {info : OrderInfo}
    (found : book.orders.lookup id = some info) (side : BookSide) (price : Int32) :
    book.restingQuantity side price = book.restBeside id side price + info.weightAt side price := by
  rw [restingQuantity, sumBy_of_lookup _ found, restBeside, Nat.add_comm]

/-- Removing up to an order's own quantity from its level never takes the error branch. -/
theorem Aggregated.remove {book : OrderBook} (aggregated : book.Aggregated) {id : UInt64}
    {info : OrderInfo} (found : book.orders.lookup id = some info) {quantity : UInt32}
    (le : quantity ≤ info.quantity) :
    (book.removeFromPriceLevel info.side info.price quantity).2 = [] ∧
      ∀ side price,
        ((book.removeFromPriceLevel info.side info.price quantity).1.levelQuantity
            side price).toNat =
          book.restBeside id side price +
            if info.side.bookSide = side ∧ info.price = price
              then info.quantity.toNat - quantity.toNat else 0 := by
  have enough := UInt32.le_trans le (aggregated.quantity_le found)
  obtain ⟨silent, left⟩ := removeFromPriceLevel_of_le enough
  refine ⟨silent, ?_⟩
  intro side price
  rw [left]
  apply toNat_level_sub
  rw [aggregated, restingQuantity_of_lookup found, OrderInfo.weightAt]
  have bound := UInt32.le_iff_toNat_le.mp le
  split <;> omega

@[simp] theorem orders_removeFromPriceLevel (book : OrderBook) (side : Side) (price : Int32)
    (quantity : UInt32) :
    (book.removeFromPriceLevel side price quantity).1.orders = book.orders := by
  simp [removeFromPriceLevel]

@[simp] theorem orders_addToPriceLevel (book : OrderBook) (side : Side) (price : Int32)
    (quantity : UInt32) : (book.addToPriceLevel side price quantity).orders = book.orders := by
  simp [addToPriceLevel]

end OrderBook

/-- The two `ERROR: Removing more quantity` lines. -/
def BookError.RemovesMore : BookError → Prop
  | .removingMore .. => True
  | _ => False

namespace OrderBook

/-- What one handler call keeps: exact levels if the new sums fit, and no removal that asks
for more than there is. -/
def KeepsLevels (result : OrderBook × List BookError) : Prop :=
  (result.1.SumsFit → result.1.Aggregated) ∧ ∀ error ∈ result.2, ¬ error.RemovesMore

/-- The crossed-book warning is no removal. -/
theorem warning_harmless {crossed : Bool} {warning : BookError} (harmless : ¬ warning.RemovesMore) :
    ∀ error ∈ (if crossed then [warning] else []), ¬ error.RemovesMore := by
  intro error member
  cases crossed with
  | false => simp at member
  | true =>
      rw [if_pos rfl, List.mem_singleton] at member
      rw [member]
      exact harmless

theorem keepsLevels_ignored {book : OrderBook} (aggregated : book.Aggregated)
    {errors : List BookError} (harmless : ∀ error ∈ errors, ¬ error.RemovesMore) :
    KeepsLevels (book, errors) :=
  ⟨fun _ => aggregated, harmless⟩

/-- Storing an order in a book whose levels hold everything beside it. -/
theorem levelQuantity_storeOrder {book : OrderBook} {id : UInt64} {info : OrderInfo}
    (beside : ∀ side price,
      (book.levelQuantity side price).toNat = book.restBeside id side price)
    (fits : (book.storeOrder id info).SumsFit) (side : BookSide) (price : Int32) :
    ((book.storeOrder id info).levelQuantity side price).toNat =
      (book.storeOrder id info).restingQuantity side price := by
  have sum : (book.storeOrder id info).restingQuantity side price =
      book.restBeside id side price + info.weightAt side price := by
    rw [restingQuantity, storeOrder, orders_addToPriceLevel, sumBy_insert, restBeside, Nat.add_comm]
  have bound := fits side price
  rw [sum, OrderInfo.weightAt] at bound
  rw [sum, storeOrder, levelQuantity_addToPriceLevel, OrderInfo.weightAt]
  have unchanged : ({ book with orders := book.orders.insert id info }).levelQuantity side price =
      book.levelQuantity side price := levelQuantity_congr rfl rfl side price
  rw [unchanged]
  exact toNat_level_add (beside side price) bound

theorem keepsLevels_handleNewOrder {book : OrderBook} (aggregated : book.Aggregated)
    (msg : NewOrder) : KeepsLevels (book.handleNewOrder msg) := by
  unfold handleNewOrder
  split
  · exact keepsLevels_ignored aggregated (by simp)
  split
  · exact keepsLevels_ignored aggregated (by simp [BookError.RemovesMore])
  split
  · exact keepsLevels_ignored aggregated (by simp [BookError.RemovesMore])
  rename_i notDuplicate
  split
  · exact keepsLevels_ignored aggregated (by simp [BookError.RemovesMore])
  split
  · exact keepsLevels_ignored aggregated (by simp [BookError.RemovesMore])
  have absent : book.orders.lookup msg.orderId = none := by simpa using notDuplicate
  constructor
  · intro fits
    apply levelQuantity_storeOrder _ fits
    intro side price
    rw [aggregated, restBeside, erase_of_lookup_none absent]
    rfl
  · exact warning_harmless id

/-- A handler's last step replaces orders and sequence number but no level. -/
theorem aggregated_of_levels (removed : OrderBook) {result : OrderBook}
    (bids : result.bids = removed.bids) (asks : result.asks = removed.asks)
    (exact : ∀ side price,
      (removed.levelQuantity side price).toNat = result.restingQuantity side price) :
    result.Aggregated := by
  intro side price
  rw [levelQuantity_congr bids asks, exact]

/-- Dropping a whole order keeps the levels exact, whatever sequence number is recorded. -/
theorem keepsLevels_dropOrder {book : OrderBook} (aggregated : book.Aggregated) {id : UInt64}
    {info : OrderInfo} (found : book.orders.lookup id = some info) (seqNum : UInt32) :
    KeepsLevels ({ (book.dropOrder id info).1 with lastSeqNum := seqNum },
      (book.dropOrder id info).2) := by
  obtain ⟨silent, left⟩ := aggregated.remove found (UInt32.le_refl info.quantity)
  refine ⟨fun _ => ?_, by simp [dropOrder, silent]⟩
  refine aggregated_of_levels (book.removeFromPriceLevel info.side info.price info.quantity).1
    rfl rfl fun side price => ?_
  rw [left side price]
  simp [dropOrder, restingQuantity, restBeside]

theorem keepsLevels_handleDeleteOrder {book : OrderBook} (aggregated : book.Aggregated)
    (msg : DeleteOrder) : KeepsLevels (book.handleDeleteOrder msg) := by
  unfold handleDeleteOrder
  split
  · exact keepsLevels_ignored aggregated (by simp)
  rename_i info found
  split
  · exact keepsLevels_ignored aggregated (by simp)
  exact keepsLevels_dropOrder aggregated found msg.header.seqNum

theorem keepsLevels_handleModifyOrder {book : OrderBook} (aggregated : book.Aggregated)
    (msg : ModifyOrder) : KeepsLevels (book.handleModifyOrder msg) := by
  unfold handleModifyOrder
  split
  · exact keepsLevels_ignored aggregated (by simp [BookError.RemovesMore])
  rename_i info found
  split
  · exact keepsLevels_ignored aggregated (by simp)
  obtain ⟨silent, left⟩ := aggregated.remove found (UInt32.le_refl info.quantity)
  constructor
  · intro fits
    apply levelQuantity_storeOrder _ fits
    intro side price
    rw [left side price]
    simp [restBeside]
  · have harmless : ¬ BookError.crossedAfterModify.RemovesMore := id
    simpa [silent] using warning_harmless harmless

theorem keepsLevels_handleTrade {book : OrderBook} (aggregated : book.Aggregated)
    (msg : Trade) : KeepsLevels (book.handleTrade msg) := by
  unfold handleTrade
  split
  · exact keepsLevels_ignored aggregated (by simp)
  rename_i info found
  split
  · exact keepsLevels_ignored aggregated (by simp)
  split
  · obtain ⟨levels, errors⟩ := keepsLevels_dropOrder aggregated found book.lastSeqNum
    refine ⟨levels, ?_⟩
    intro error member
    rcases List.mem_cons.mp member with excess | removal
    · rw [excess]
      exact id
    · exact errors error removal
  rename_i enough
  have le := UInt32.not_lt.mp enough
  obtain ⟨silent, left⟩ := aggregated.remove found le
  refine ⟨fun _ => ?_, by simp [silent]⟩
  refine aggregated_of_levels (book.removeFromPriceLevel info.side info.price msg.quantity).1
    rfl rfl fun side price => ?_
  rw [left side price]
  have remaining := UInt32.toNat_sub_of_le _ _ le
  by_cases finished : info.quantity - msg.quantity = 0
  · have none_left : info.quantity.toNat - msg.quantity.toNat = 0 := by
      rw [← remaining, finished]
      rfl
    simp [restingQuantity, restBeside, finished, none_left]
  · have sum : sumBy (fun _ entry => entry.weightAt side price)
        (book.orders.insert msg.orderId (info.reduced msg.quantity)) =
        (info.reduced msg.quantity).weightAt side price + book.restBeside msg.orderId side price :=
      sumBy_insert _ _ _ _
    simp only [restingQuantity, finished, if_false, orders_removeFromPriceLevel, sum]
    rw [Nat.add_comm, OrderInfo.weightAt, OrderInfo.reduced, remaining]

/-- No message breaks the aggregation. -/
theorem keepsLevels_handle {book : OrderBook} (aggregated : book.Aggregated) (msg : BookMsg) :
    KeepsLevels (book.handle msg) := by
  cases msg with
  | newOrder msg => exact keepsLevels_handleNewOrder aggregated msg
  | deleteOrder msg => exact keepsLevels_handleDeleteOrder aggregated msg
  | modifyOrder msg => exact keepsLevels_handleModifyOrder aggregated msg
  | trade msg => exact keepsLevels_handleTrade aggregated msg

/-! ### Runs -/

theorem aggregated_empty (symbol : UInt32) : (empty symbol).Aggregated := by
  intro side price
  cases side <;> rfl

/-- From an empty book, every message sequence whose exact level sums fit in 32 bits keeps
each level equal to the sum of the orders resting there, and never takes one of the
"Removing more quantity than exists" branches. -/
theorem levels_eq_resting_sums (symbol : UInt32) (msgs : List BookMsg)
    (fits : ∀ earlier, earlier <+: msgs → (earlier.foldl next (empty symbol)).SumsFit) :
    (∀ earlier, earlier <+: msgs → ∀ side price,
        ((earlier.foldl next (empty symbol)).levelQuantity side price).toNat =
          (earlier.foldl next (empty symbol)).restingQuantity side price) ∧
      ∀ error ∈ emitted next errors (empty symbol) msgs, ¬ error.RemovesMore := by
  have allowed := along_of_prefixes fits
  have step : ∀ (book : OrderBook) (msg : BookMsg), book.Aggregated →
      (book.next msg).SumsFit → (book.next msg).Aggregated :=
    fun book msg aggregated => (keepsLevels_handle aggregated msg).1
  refine ⟨invariant_everywhere step (aggregated_empty symbol) allowed, ?_⟩
  apply emitted_forall
  refine Along.of_invariant step ?_ (aggregated_empty symbol) allowed
  intro book msg aggregated _
  exact (keepsLevels_handle aggregated msg).2

/-- A book whose whole quantity fits has level sums that fit. -/
theorem sumsFit_of_total {book : OrderBook}
    (total : sumBy (fun _ info => info.quantity.toNat) book.orders < 2 ^ 32) : book.SumsFit := by
  intro side price
  refine Nat.lt_of_le_of_lt (sumBy_mono ?_ book.orders) total
  intro _ info
  rw [OrderInfo.weightAt]
  split
  · exact Nat.le_refl _
  · exact Nat.zero_le _

/-- Two bids at one price, a flip of the first to the other side, a trade larger than the
second, and a delete of an unknown order. -/
def flipAndOvertrade : List BookMsg :=
  [.newOrder ⟨⟨1, .NEW_ORDER⟩, 10, 3, .BUY, 5, 100⟩,
   .newOrder ⟨⟨2, .NEW_ORDER⟩, 11, 3, .BUY, 4, 100⟩,
   .modifyOrder ⟨⟨3, .MODIFY_ORDER⟩, 10, .SELL, 7, 105⟩,
   .trade ⟨⟨4, .TRADE⟩, 11, 9⟩,
   .deleteOrder ⟨⟨5, .DELETE_ORDER⟩, 12⟩]

theorem levels_eq_resting_sums_flipAndOvertrade :
    (∀ earlier, earlier <+: flipAndOvertrade → ∀ side price,
        ((earlier.foldl next (empty 3)).levelQuantity side price).toNat =
          (earlier.foldl next (empty 3)).restingQuantity side price) ∧
      ∀ error ∈ emitted next errors (empty 3) flipAndOvertrade, ¬ error.RemovesMore := by
  apply levels_eq_resting_sums 3 flipAndOvertrade
  have totals : ∀ earlier ∈ flipAndOvertrade.inits,
      sumBy (fun _ info => info.quantity.toNat) (earlier.foldl next (empty 3)).orders < 2 ^ 32 := by
    decide
  intro earlier isPrefix
  exact sumsFit_of_total (totals earlier ((List.mem_inits _ _).mpr isPrefix))

end OrderBook

end HftAlgorithms
