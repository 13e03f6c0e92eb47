/-
Module: HftAlgorithms.Proofs.ArbSnapshots
Purpose: What `snapshot` returns is what the orders resting in the books and the
  fills booked so far give, between any two calls of a run whose messages carry
  prices, sides and quantities in range.
Trusted boundary: none
Main exports: SymbolCall.Benign, SymbolCall.filled, SymbolSlot.Current,
  SymbolManager.SnapshotExact, SymbolManager.snapshot_exact
-/
import HftAlgorithms.MarketData.SymbolManager
import HftAlgorithms.Proofs.TopOfBook
import Mathlib.Algebra.Order.BigOperators.Group.List

namespace HftAlgorithms

open FiniteMap StateMachine

/-! ### Calls in range -/

/-- Ten such prices sum to a signed word. -/
def PriceInRange (price : Int32) : Prop := 1 ≤ price.toInt ∧ price.toInt ≤ 10 ^ 8

/-- The call is for a symbol with a slot, and its message's price, side and quantity are in
range. -/
def SymbolCall.Benign : SymbolCall → Prop
  | .onNewOrder id msg =>
      id ∈ symbolIds ∧ PriceInRange msg.price ∧ (msg.side = .BUY ∨ msg.side = .SELL)
  | .onDeleteOrder id _ => id ∈ symbolIds
  | .onModifyOrder id msg =>
      id ∈ symbolIds ∧ PriceInRange msg.price ∧ (msg.side = .BUY ∨ msg.side = .SELL) ∧
        msg.quantity ≠ 0
  | .onTrade id _ => id ∈ symbolIds
  | .resetBook id => id ∈ symbolIds
  | .onFill id _ _ _ => id ∈ symbolIds

/-- What a call fills of one symbol, signed. -/
def SymbolCall.filled (symbol : UInt32) : SymbolCall → Int
  | .onFill id side qty _ => if id = symbol then exactMove 0 side qty.toNat else 0
  | _ => 0

theorem PriceInRange.pos {price : Int32} (range : PriceInRange price) : 0 < price := by
  rw [Int32.lt_iff_toInt_lt, Int32.toInt_zero]
  exact range.1

/-! ### One slot -/

namespace SymbolSlot

/-- The cache is the top of the book, and the book's orders are quotable within range. -/
structure Current (slot : SymbolSlot) : Prop where
  quoted : slot.book.Quoted
  inRange : ∀ id info, slot.book.orders.lookup id = some info → PriceInRange info.price
  flushed : slot.flushTopOfBook = slot

theorem current_empty (id : UInt32) (position : Int32) :
    { SymbolSlot.empty id with position := position }.Current := by
  refine ⟨OrderBook.quoted_empty id, ?_, rfl⟩
  intro order info found
  cases found

/-- What a book handler and the flush after it leave. -/
theorem Current.handled {slot : SymbolSlot} (current : slot.Current) {msg : BookMsg}
    (stores : ∀ order, msg = .newOrder order →
      PriceInRange order.price ∧ (order.side = .BUY ∨ order.side = .SELL))
    (changes : ∀ change, msg = .modifyOrder change →
      PriceInRange change.price ∧ (change.side = .BUY ∨ change.side = .SELL) ∧
        change.quantity ≠ 0)
    (fits : (slot.book.next msg).SumsFit) :
    { slot with book := slot.book.next msg }.flushTopOfBook.Current := by
  have quotes : slot.book.Quotes msg := by
    cases msg with
    | newOrder order => exact fun _ => (stores order rfl).1.pos
    | deleteOrder _ => trivial
    | modifyOrder change =>
        obtain ⟨range, side, quantity⟩ := changes change rfl
        exact fun _ => ⟨side, quantity, range.pos⟩
    | trade _ => trivial
  refine ⟨current.quoted.next quotes fits, ?_, rfl⟩
  apply OrderBook.entries_next current.inRange
  · exact fun order isNew _ => (stores order isNew).1
  · exact fun change info isModify _ _ => (changes change isModify).1
  · exact fun info quantity range _ => range

theorem Current.moved {slot : SymbolSlot} (current : slot.Current) (position : Int32) :
    { slot with position := position }.Current :=
  ⟨current.quoted, current.inRange,
    congrArg (fun flushed : SymbolSlot => { flushed with position := position }) current.flushed⟩

/-- The caches of a current slot are the top of its book's resting orders. -/
theorem Current.bid {slot : SymbolSlot} (current : slot.Current) :
    slot.book.TopOf .bid slot.bestBidPrice slot.bestBidQty := by
  rw [← current.flushed]
  exact current.quoted.topOf .bid

theorem Current.ask {slot : SymbolSlot} (current : slot.Current) :
    slot.book.TopOf .ask slot.bestAskPrice slot.bestAskQty := by
  rw [← current.flushed]
  exact current.quoted.topOf .ask

end SymbolSlot

namespace SymbolManager

/-! ### Runs -/

/-- Every slot is current. -/
def Current (manager : SymbolManager) : Prop :=
  ∀ symbol ∈ symbolIds, (manager.slots symbol).Current

/-- The level sums of every book fit in 32 bits. -/
def BooksFit (manager : SymbolManager) : Prop :=
  ∀ symbol ∈ symbolIds, (manager.slots symbol).book.SumsFit

theorem current_empty : empty.Current := fun symbol _ => SymbolSlot.current_empty symbol 0

/-- One slot is replaced by a current one. -/
theorem Current.update {manager : SymbolManager} (current : manager.Current) {id : UInt32}
    {slot : SymbolSlot} (replaced : slot.Current) :
    ∀ symbol ∈ symbolIds, (Function.update manager.slots id slot symbol).Current := by
  intro symbol covered
  by_cases own : symbol = id
  · rw [own, Function.update_self]
    exact replaced
  · rw [Function.update_of_ne own]
    exact current symbol covered

theorem Current.onBookMsg {manager : SymbolManager} (current : manager.Current) {id : UInt32}
    (covered : id ∈ symbolIds) {msg : BookMsg}
    (stores : ∀ order, msg = .newOrder order →
      PriceInRange order.price ∧ (order.side = .BUY ∨ order.side = .SELL))
    (changes : ∀ change, msg = .modifyOrder change →
      PriceInRange change.price ∧ (change.side = .BUY ∨ change.side = .SELL) ∧
        change.quantity ≠ 0)
    (fits : (manager.onBookMsg id msg).BooksFit) :
    (manager.onBookMsg id msg).Current := by
  have own := fits id covered
  simp only [SymbolManager.onBookMsg, setSlot, Function.update_self,
    SymbolSlot.flushTopOfBook] at own
  exact current.update ((current id covered).handled stores changes own)

theorem current_next {manager : SymbolManager} (current : manager.Current) {call : SymbolCall}
    (benign : call.Benign) (fits : (manager.next call).BooksFit) :
    (manager.next call).Current := by
  cases call with
  | onNewOrder id msg =>
      obtain ⟨covered, range, side⟩ := benign
      apply current.onBookMsg covered _ _ fits
      · rintro order ⟨⟩
        exact ⟨range, side⟩
      · rintro change ⟨⟩
  | onDeleteOrder id msg =>
      apply current.onBookMsg benign _ _ fits
      · rintro order ⟨⟩
      · rintro change ⟨⟩
  | onModifyOrder id msg =>
      obtain ⟨covered, range, side, quantity⟩ := benign
      apply current.onBookMsg covered _ _ fits
      · rintro order ⟨⟩
      · rintro change ⟨⟩
        exact ⟨range, side, quantity⟩
  | onTrade id msg =>
      apply current.onBookMsg benign _ _ fits
      · rintro order ⟨⟩
      · rintro change ⟨⟩
  | resetBook id => exact current.update (SymbolSlot.current_empty id _)
  | onFill id side qty price => exact current.update ((current id benign).moved _)

/-- A fill moves a position modulo `2 ^ 32`. -/
theorem toInt_movedPosition_bmod (position : Int32) (side : Side) (qty : UInt32) :
    (movedPosition position side qty).toInt =
      (exactMove position.toInt side qty.toNat).bmod (2 ^ 32) := by
  rw [movedPosition, exactMove]
  split
  · rw [Int32.toInt_add, FixedWidth.toInt_toInt32, Int.add_bmod_bmod]
  · rw [Int32.toInt_sub, FixedWidth.toInt_toInt32, Int.sub_bmod_bmod]

/-- A call moves each position by what it fills. -/
theorem toInt_position_next (manager : SymbolManager) (call : SymbolCall) (symbol : UInt32) :
    ((manager.next call).getPosition symbol).toInt =
      ((manager.getPosition symbol).toInt + call.filled symbol).bmod (2 ^ 32) := by
  have kept : (manager.getPosition symbol).toInt =
      ((manager.getPosition symbol).toInt + 0).bmod (2 ^ 32) := by
    have low := (manager.getPosition symbol).le_toInt
    have high := (manager.getPosition symbol).toInt_lt
    rw [Int.add_zero]
    exact (Int.bmod_eq_of_le (by omega) (by omega)).symm
  have book (id : UInt32) (msg : BookMsg) :
      (manager.onBookMsg id msg).getPosition symbol = manager.getPosition symbol := by
    by_cases own : symbol = id
    · subst own
      simp [onBookMsg, setSlot, getPosition, SymbolSlot.flushTopOfBook]
    · simp [onBookMsg, setSlot, getPosition, own]
  cases call with
  | onNewOrder id msg => exact (congrArg Int32.toInt (book id (.newOrder msg))).trans kept
  | onDeleteOrder id msg => exact (congrArg Int32.toInt (book id (.deleteOrder msg))).trans kept
  | onModifyOrder id msg => exact (congrArg Int32.toInt (book id (.modifyOrder msg))).trans kept
  | onTrade id msg => exact (congrArg Int32.toInt (book id (.trade msg))).trans kept
  | resetBook id =>
      have same : (manager.resetBook id).getPosition symbol = manager.getPosition symbol := by
        by_cases own : symbol = id
        · subst own
          simp [resetBook, setSlot, getPosition]
        · simp [resetBook, setSlot, getPosition, own]
      exact (congrArg Int32.toInt same).trans kept
  | onFill id side qty price =>
      rw [next, getPosition_onFill, SymbolCall.filled]
      by_cases own : symbol = id
      · subst own
        rw [if_pos rfl, if_pos rfl, toInt_movedPosition_bmod, exactMove, exactMove]
        split <;> congr 1 <;> omega
      · rw [if_neg own, if_neg fun same => own same.symm]
        exact kept

/-- After a run each position is what it was and the sum of the fills, modulo `2 ^ 32`. -/
theorem toInt_position_foldl (manager : SymbolManager) (calls : List SymbolCall)
    (symbol : UInt32) :
    (((calls.foldl next manager).getPosition symbol).toInt).bmod (2 ^ 32) =
      ((manager.getPosition symbol).toInt + (calls.map (SymbolCall.filled symbol)).sum).bmod
        (2 ^ 32) := by
  induction calls generalizing manager with
  | nil => rw [List.foldl_nil, List.map_nil, List.sum_nil, Int.add_zero]
  | cons call calls inductionHypothesis =>
      rw [List.foldl_cons, inductionHypothesis, toInt_position_next, Int.bmod_add_bmod,
        List.map_cons, List.sum_cons, Int.add_assoc]

/-- A sum of fills that is a signed word is the position. -/
theorem toInt_position_of_fits {calls : List SymbolCall} {symbol : UInt32}
    (low : -2 ^ 31 ≤ (calls.map (SymbolCall.filled symbol)).sum)
    (high : (calls.map (SymbolCall.filled symbol)).sum < 2 ^ 31) :
    ((calls.foldl next empty).getPosition symbol).toInt =
      (calls.map (SymbolCall.filled symbol)).sum := by
  have moved := toInt_position_foldl empty calls symbol
  have flat : (empty.getPosition symbol).toInt = 0 := rfl
  have lowest := ((calls.foldl next empty).getPosition symbol).le_toInt
  have highest := ((calls.foldl next empty).getPosition symbol).toInt_lt
  rw [flat, Int.zero_add, Int.bmod_eq_of_le (by omega) (by omega),
    Int.bmod_eq_of_le (by omega) (by omega)] at moved
  exact moved

theorem current_foldl {calls : List SymbolCall} (benign : ∀ call ∈ calls, call.Benign)
    (fits : ∀ earlier, earlier <+: calls → (earlier.foldl next empty).BooksFit) :
    ∀ earlier, earlier <+: calls → (earlier.foldl next empty).Current := by
  apply invariant_everywhere _ current_empty ((along_of_prefixes fits).and_inputs benign)
  intro manager call current allowed
  exact current_next current allowed.1 allowed.2

/-! ### The NAV -/

/-- The missing flag is set by a price of 0. -/
theorem missing_foldl_addToNav (nav : Int32 × Bool) (prices : List Int32) :
    (prices.foldl addToNav nav).2 = true ↔ nav.2 = true ∨ (0 : Int32) ∈ prices := by
  induction prices generalizing nav with
  | nil => simp
  | cons price prices inductionHypothesis =>
      rw [List.foldl_cons, inductionHypothesis, addToNav, List.mem_cons]
      split
      · rename_i zero
        simp [zero]
      · rename_i nonzero
        simp [Ne.symm nonzero]

/-- Prices that are positive and sum to a signed word are added exactly. -/
theorem toInt_foldl_addToNav {nav : Int32 × Bool} {prices : List Int32}
    (positive : ∀ price ∈ prices, 1 ≤ price.toInt) (nonneg : 0 ≤ nav.1.toInt)
    (fits : nav.1.toInt + (prices.map Int32.toInt).sum < 2 ^ 31) :
    (prices.foldl addToNav nav).1.toInt = nav.1.toInt + (prices.map Int32.toInt).sum := by
  induction prices generalizing nav with
  | nil => simp
  | cons price prices inductionHypothesis =>
      rw [List.map_cons, List.sum_cons] at fits
      have here := positive price List.mem_cons_self
      have later : ∀ other ∈ prices, 1 ≤ other.toInt :=
        fun other member => positive other (List.mem_cons_of_mem _ member)
      have rest : 0 ≤ (prices.map Int32.toInt).sum := by
        apply List.sum_nonneg
        intro value member
        obtain ⟨other, within, rfl⟩ := List.mem_map.mp member
        exact Int.le_trans (by decide) (later other within)
      have nonzero : price ≠ 0 := by
        rintro rfl
        exact absurd here (by decide)
      have added : (addToNav nav price).1.toInt = nav.1.toInt + price.toInt := by
        rw [addToNav, if_neg nonzero, Int32.toInt_add]
        exact Int.bmod_eq_of_le (by omega) (by omega)
      rw [List.foldl_cons, inductionHypothesis later (by omega) (by omega), added, List.map_cons,
        List.sum_cons, Int.add_assoc]

/-! ### What is claimed of a snapshot -/

/-- The top of a symbol's book and the position, as the resting orders and the fills give them. -/
structure EntryExact (book : OrderBook) (filled : Int) (data : DormData) : Prop where
  bid : book.TopOf .bid data.bestBidPrice data.bestBidQty
  ask : book.TopOf .ask data.bestAskPrice data.bestAskQty
  position : -2 ^ 31 ≤ filled → filled < 2 ^ 31 → data.position.toInt = filled

/-- A side is missing if some dorm has no order there; otherwise its NAV is the sum of the ten
best prices of resting orders. -/
structure NavExact (manager : SymbolManager) (side : BookSide) (nav : Int32) (missing : Bool) :
    Prop where
  missing_iff : missing = true ↔
    ∃ id ∈ DORM_IDS, ∀ price, ¬ (manager.slots id).book.RestsAt side price
  sum : missing = false → ∃ best : UInt32 → Int32,
    (∀ id ∈ DORM_IDS, side.IsBest {price | (manager.slots id).book.RestsAt side price} (best id)) ∧
      nav.toInt = (DORM_IDS.map fun id => (best id).toInt).sum

/-- The UNDY part of a snapshot, in the shape of a dorm's. -/
def undyData (snap : ArbSnapshot) : DormData :=
  { bestBidPrice := snap.undyBestBidPrice
    bestAskPrice := snap.undyBestAskPrice
    bestBidQty := snap.undyBestBidQty
    bestAskQty := snap.undyBestAskQty
    position := snap.undyPosition }

structure SnapshotExact (manager : SymbolManager) (filled : UInt32 → Int) : Prop where
  dorms : ∀ id data, (id, data) ∈ DORM_IDS.zip manager.snapshot.dorms.toList →
    EntryExact (manager.slots id).book (filled id) data
  undy : EntryExact (manager.slots SYM_UNDY).book (filled SYM_UNDY) (undyData manager.snapshot)
  ask : NavExact manager .ask manager.snapshot.navAsk manager.snapshot.anyDormAskMissing
  bid : NavExact manager .bid manager.snapshot.navBid manager.snapshot.anyDormBidMissing

/-- Every dorm has a slot. -/
theorem mem_symbolIds_of_dorm {id : UInt32} (dorm : id ∈ DORM_IDS) : id ∈ symbolIds := by
  simp only [DORM_IDS, List.mem_cons, List.not_mem_nil, or_false] at dorm
  rcases dorm with rfl | rfl | rfl | rfl | rfl | rfl | rfl | rfl | rfl | rfl <;> decide

theorem entryExact_dormData {manager : SymbolManager} (current : manager.Current) {id : UInt32}
    (covered : id ∈ symbolIds) {filled : Int}
    (position : -2 ^ 31 ≤ filled → filled < 2 ^ 31 → (manager.getPosition id).toInt = filled) :
    EntryExact (manager.slots id).book filled (manager.dormData id) :=
  ⟨(current id covered).bid, (current id covered).ask, position⟩

/-- The price of a top that is not 0 is the best of the resting orders, and in range. -/
theorem isBest_of_topOf {slot : SymbolSlot} (current : slot.Current) {side : BookSide}
    {price : Int32} {quantity : UInt32} (top : slot.book.TopOf side price quantity)
    (nonzero : price ≠ 0) :
    side.IsBest {other | slot.book.RestsAt side other} price ∧ PriceInRange price := by
  rcases top with ⟨-, zero, -⟩ | ⟨best, -⟩
  · exact absurd zero nonzero
  · obtain ⟨id, info, found, -, rfl⟩ := best.mem
    exact ⟨best, current.inRange id info found⟩

/-- The loop over one side of the dorms. -/
theorem navExact_foldl {manager : SymbolManager} (current : manager.Current) {side : BookSide}
    {price : UInt32 → Int32} {quantity : UInt32 → UInt32}
    (top : ∀ id, id ∈ symbolIds →
      (manager.slots id).book.TopOf side (price id) (quantity id)) :
    NavExact manager side ((DORM_IDS.map price).foldl addToNav (0, false)).1
      ((DORM_IDS.map price).foldl addToNav (0, false)).2 := by
  have missing := missing_foldl_addToNav (0, false) (DORM_IDS.map price)
  constructor
  · rw [missing]
    constructor
    · rintro (impossible | zero)
      · cases impossible
      · obtain ⟨id, dorm, isZero⟩ := List.mem_map.mp zero
        have covered := mem_symbolIds_of_dorm dorm
        exact ⟨id, dorm, ((current id covered).quoted.topOf_zero_iff (top id covered)).mp isZero⟩
    · rintro ⟨id, dorm, noOrder⟩
      have covered := mem_symbolIds_of_dorm dorm
      have zero := ((current id covered).quoted.topOf_zero_iff (top id covered)).mpr noOrder
      exact Or.inr (List.mem_map.mpr ⟨id, dorm, zero⟩)
  · intro present
    have nonzero : ∀ id ∈ DORM_IDS, price id ≠ 0 := by
      intro id dorm zero
      rw [missing.mpr (Or.inr (List.mem_map.mpr ⟨id, dorm, zero⟩))] at present
      cases present
    have best : ∀ id ∈ DORM_IDS,
        side.IsBest {other | (manager.slots id).book.RestsAt side other} (price id) ∧
          PriceInRange (price id) := by
      intro id dorm
      have covered := mem_symbolIds_of_dorm dorm
      exact isBest_of_topOf (current id covered) (top id covered) (nonzero id dorm)
    refine ⟨price, fun id dorm => (best id dorm).1, ?_⟩
    have bound : ((DORM_IDS.map price).map Int32.toInt).sum ≤
        ((DORM_IDS.map price).map Int32.toInt).length • (10 ^ 8 : Int) := by
      apply List.sum_le_card_nsmul
      intro value member
      obtain ⟨other, within, rfl⟩ := List.mem_map.mp member
      obtain ⟨id, dorm, rfl⟩ := List.mem_map.mp within
      exact (best id dorm).2.2
    have ten : ((DORM_IDS.map price).map Int32.toInt).length = 10 := rfl
    have zero : ((0 : Int32), false).1.toInt = 0 := rfl
    rw [ten, nsmul_eq_mul] at bound
    rw [toInt_foldl_addToNav, zero, Int.zero_add, List.map_map]
    · rfl
    · intro value member
      obtain ⟨id, dorm, rfl⟩ := List.mem_map.mp member
      exact (best id dorm).2.1
    · exact Int.le_refl 0
    · rw [zero, Int.zero_add]
      exact Int.lt_of_le_of_lt bound (by decide)

theorem Current.snapshotExact {manager : SymbolManager} (current : manager.Current)
    {filled : UInt32 → Int}
    (position : ∀ id, -2 ^ 31 ≤ filled id → filled id < 2 ^ 31 →
      (manager.getPosition id).toInt = filled id) : manager.SnapshotExact filled := by
  constructor
  · intro id data member
    have pairs : DORM_IDS.zip manager.snapshot.dorms.toList =
        DORM_IDS.map fun dorm => (dorm, manager.dormData dorm) := rfl
    rw [pairs] at member
    obtain ⟨dorm, within, same⟩ := List.mem_map.mp member
    cases same
    exact entryExact_dormData current (mem_symbolIds_of_dorm within) (position _)
  · exact entryExact_dormData current (by decide) (position SYM_UNDY)
  · exact navExact_foldl current fun id covered => (current id covered).ask
  · exact navExact_foldl current fun id covered => (current id covered).bid

/-- A snapshot taken between two calls of a run has the tops of the resting orders, their NAVs,
and the sums of the fills. -/
theorem snapshot_exact {calls : List SymbolCall} (benign : ∀ call ∈ calls, call.Benign)
    (fits : ∀ earlier, earlier <+: calls → (earlier.foldl next empty).BooksFit) :
    ∀ earlier, earlier <+: calls → (earlier.foldl next empty).SnapshotExact
      fun symbol => (earlier.map (SymbolCall.filled symbol)).sum := by
  intro earlier isPrefix
  apply (current_foldl benign fits earlier isPrefix).snapshotExact
  intro symbol low high
  exact toInt_position_of_fits low high

/-- An ask of the first dorm, a fill of it, a new price, a trade, and a fresh book. -/
def askFilledAndReset : List SymbolCall :=
  [.onNewOrder 3 ⟨⟨1, .NEW_ORDER⟩, 10, 3, .SELL, 5, 100⟩,
   .onFill 3 .BUY 2 100,
   .onModifyOrder 3 ⟨⟨2, .MODIFY_ORDER⟩, 10, .SELL, 4, 101⟩,
   .onTrade 3 ⟨⟨3, .TRADE⟩, 10, 1⟩,
   .resetBook 3]

theorem snapshot_exact_askFilledAndReset :
    (askFilledAndReset.foldl next empty).SnapshotExact
      fun symbol => (askFilledAndReset.map (SymbolCall.filled symbol)).sum := by
  refine snapshot_exact ?_ ?_ askFilledAndReset (List.prefix_refl _)
  · intro call member
    simp only [askFilledAndReset, List.mem_cons, List.not_mem_nil, or_false] at member
    rcases member with rfl | rfl | rfl | rfl | rfl
    · exact ⟨by decide, ⟨by decide, by decide⟩, Or.inr rfl⟩
    · exact (by decide : (3 : UInt32) ∈ symbolIds)
    · exact ⟨by decide, ⟨by decide, by decide⟩, Or.inr rfl, by decide⟩
    · exact (by decide : (3 : UInt32) ∈ symbolIds)
    · exact (by decide : (3 : UInt32) ∈ symbolIds)
  · have totals : ∀ earlier ∈ askFilledAndReset.inits, ∀ index ∈ List.range 14,
        sumBy (fun _ info => info.quantity.toNat)
          ((earlier.foldl next empty).slots (UInt32.ofNat index)).book.orders < 2 ^ 32 := by
      decide +kernel
    intro earlier isPrefix symbol covered
    have index : symbol.toNat ∈ List.range 14 := by
      simp only [symbolIds, Finset.mem_insert, Finset.mem_singleton] at covered
      rcases covered with rfl | rfl | rfl | rfl | rfl | rfl | rfl | rfl | rfl | rfl | rfl | rfl |
        rfl <;> decide
    have total := totals earlier ((List.mem_inits _ _).mpr isPrefix) symbol.toNat index
    rw [UInt32.ofNat_toNat] at total
    exact OrderBook.sumsFit_of_total total

end SymbolManager

end HftAlgorithms
