/-
Module: HftAlgorithms.Proofs.PnlGuard
Purpose: When the PnL guard gets out of its wait for flat positions.  The wait reads
  nothing, so what counts is what the guard's own waits have read before it: all of
  the fills only if each of them ends on a fill, and none on an ACK.
Trusted boundary: none
Main exports: LoopRun.UnwindFilled, LoopRun.UnwindFilled.flat_iff, PnlGuard,
  PnlGuard.Leaves, PnlGuard.leaves_iff
-/
import HftAlgorithms.Proofs.FillRouting
import HftAlgorithms.Proofs.UnwindFills

namespace HftAlgorithms

open OEClient (closedByFill)

namespace LoopRun

/-! ### An exchange that fills the orders -/

/-- The exchange fills every order of the unwind completely, the last fill closing it, and nothing
else moves a position: no order is filled after it has been closed or before it is sent, and other
fills are of orders that the bot has no route for.  ACKs may come anywhere. -/
structure UnwindFilled (world : World) (loop : LoopRun) : Prop where
  whole : ∀ order ∈ loop.ordersFrom world symbolList,
    filled order.id loop.inbox = order.qty.toNat
  closes : ∀ order ∈ loop.ordersFrom world symbolList,
    ∃ qty price, 0 < qty ∧ .fill order.id qty price .CLOSED ∈ loop.inbox
  last : ClosesLast loop.inbox
  sentFirst : SentFirst world.clock loop.clockReads (loop.idsFrom world symbolList) loop.inbox
  strangers : ∀ response ∈ loop.inbox, ∀ id, response.Fills id →
    id ∉ loop.idsFrom world symbolList →
      loop.state.bot.orderMap.lookup id = none ∧ loop.state.bot.mmOrderMap.lookup id = none

/-- Where the orders are routed. -/
def orderRoute (orders : List UnwindOrder) (id : UInt64) : Option (UInt32 × Side) :=
  (orders.find? fun order => order.id = id).map fun order => (order.symbol, order.side)

theorem exists_of_orderRoute {orders : List UnwindOrder} {id : UInt64} {symbol : UInt32}
    {side : Side} (found : orderRoute orders id = some (symbol, side)) :
    ∃ order ∈ orders, order.id = id ∧ order.symbol = symbol ∧ order.side = side := by
  obtain ⟨order, here, same⟩ := Option.map_eq_some_iff.mp found
  cases same
  exact ⟨order, List.mem_of_find?_eq_some here, by simpa using List.find?_some here, rfl, rfl⟩

theorem orderRoute_of_mem {orders : List UnwindOrder} (distinct : (orders.map UnwindOrder.id).Nodup)
    {order : UnwindOrder} (member : order ∈ orders) :
    orderRoute orders order.id = some (order.symbol, order.side) := by
  rw [orderRoute]
  cases here : orders.find? fun other => other.id = order.id with
  | none =>
      rw [List.find?_eq_none] at here
      exact absurd (decide_eq_true rfl) (here order member)
  | some found =>
      have sameId : found.id = order.id := by simpa using List.find?_some here
      rw [List.inj_on_of_nodup_map distinct (List.mem_of_find?_eq_some here) member sameId]
      rfl

theorem orderRoute_eq_none {orders : List UnwindOrder} {id : UInt64}
    (stranger : id ∉ orders.map UnwindOrder.id) : orderRoute orders id = none := by
  cases found : orderRoute orders id with
  | none => rfl
  | some route =>
      obtain ⟨order, member, rfl, -⟩ := exists_of_orderRoute found
      exact absurd (List.mem_map_of_mem member) stranger

/-- Fills of an order against a position make it flat exactly when they are all of it. -/
theorem unwound_iff {pos : Int32} {qty : Nat} (held : pos ≠ 0)
    (most : qty ≤ pos.abs.toUInt32.toNat) :
    pos + (if pos > 0 then -Int32.ofNat qty else Int32.ofNat qty) = 0 ↔
      qty = pos.abs.toUInt32.toNat := by
  rw [FixedWidth.toNat_toUInt32_abs] at most ⊢
  have low := Int32.le_toInt pos
  have high := Int32.toInt_lt pos
  have nonzero : pos.toInt ≠ 0 := fun zero => held (Int32.toInt_inj.mp zero)
  rw [← Int32.toInt_inj, Int32.toInt_add, Int32.toInt_zero]
  by_cases long : pos > 0
  · have positive : 0 < pos.toInt := Int32.lt_iff_toInt_lt.mp long
    rw [if_pos long, Int32.toInt_neg, Int32.toInt_ofNat']
    simp only [Int.bmod_def, Int32.size]
    omega
  · have negative : ¬ 0 < pos.toInt := fun positive => long (Int32.lt_iff_toInt_lt.mpr positive)
    rw [if_neg long, Int32.toInt_ofNat']
    simp only [Int.bmod_def, Int32.size]
    omega

section Filled

variable {world : World} {loop : LoopRun} (filling : UnwindFilled world loop)

theorem nodup_idsFrom (world : World) (loop : LoopRun) :
    (loop.idsFrom world symbolList).Nodup :=
  nodup_ids world loop.getPosition _ _ (by decide)

include filling

theorem UnwindFilled.underway :
    Underway world (orderRoute (loop.ordersFrom world symbolList)) symbolList loop where
  last := filling.last
  sentFirst := filling.sentFirst
  own _ member := orderRoute_of_mem (nodup_idsFrom world loop) member
  sent response member id fills stranger := by
    obtain ⟨arb, mm⟩ := filling.strangers response member id fills stranger
    rw [orderRoute_eq_none stranger]
    exact ⟨arb, fun _ => mm⟩
  elsewhere id symbol side there _ := by
    obtain ⟨order, member, rfl, -⟩ := exists_of_orderRoute there
    exact List.mem_map_of_mem member

/-- What the waits of the unwind make of the stream. -/
def unwindWaits (world : World) (loop : LoopRun) : Run.Waited :=
  Run.waits world.clock loop.clockReads (loop.idsFrom world symbolList) loop.inbox

/-- A position with an order is flat in the end exactly if the waits get to its closing fill. -/
theorem UnwindFilled.flat_of_order {order : UnwindOrder}
    (member : order ∈ loop.ordersFrom world symbolList) :
    (symbolList.foldl (flattenSymbol world) loop).getPosition order.symbol = 0 ↔
      order.id ∈ closings (loop.unwindWaits world).read := by
  obtain ⟨held, side, qty⟩ := order_of_mem world member
  have distinct := (symbols_sublist world loop.getPosition loop.state.bot.nextOrderId
    loop.quoteReads symbolList).nodup (by decide)
  have only : ∀ other otherSide,
      orderRoute (loop.ordersFrom world symbolList) other = some (order.symbol, otherSide) →
        other = order.id := by
    intro other otherSide there
    obtain ⟨found, here, rfl, same, -⟩ := exists_of_orderRoute there
    exact congrArg UnwindOrder.id (List.inj_on_of_nodup_map distinct here member same)
  have all : (loop.unwindWaits world).read ++ (loop.unwindWaits world).unread = loop.inbox :=
    Run.waits_read_append_unread _ _ _ _
  have whole := filling.whole order member
  have closes := filling.closes order member
  have last := filling.last
  rw [← all] at whole closes last
  have most : filled order.id (loop.unwindWaits world).read ≤
      (loop.getPosition order.symbol).abs.toUInt32.toNat := by
    rw [← qty, ← whole, filled_append]
    exact Nat.le_add_right _ _
  rw [getPosition_unwind world (by decide) filling.underway,
    routedFills_of_order (orderRoute_of_mem (nodup_idsFrom world loop) member) only,
    ← filled_iff_closed last whole closes, qty, ← unwound_iff held most, side]
  by_cases long : loop.getPosition order.symbol > 0
  · simp [long, unwindWaits]
  · simp [long, unwindWaits]

/-- A position without an order stays as it is. -/
theorem UnwindFilled.getPosition_of_no_order {symbol : UInt32}
    (noOrder : ∀ order ∈ loop.ordersFrom world symbolList, order.symbol ≠ symbol) :
    (symbolList.foldl (flattenSymbol world) loop).getPosition symbol = loop.getPosition symbol := by
  rw [getPosition_unwind world (by decide) filling.underway, routedFills_eq_zero, Int32.add_zero]
  intro response _ id side _ there
  obtain ⟨order, member, -, same, -⟩ := exists_of_orderRoute there
  exact noOrder order member same

/-- All positions are flat when the orders have been sent and waited for exactly if every position
had a price, and every wait read a closing fill. -/
theorem UnwindFilled.flat_iff :
    (symbolList.foldl (flattenSymbol world) loop).flat = true ↔
      (∀ symbol ∈ symbolList, loop.getPosition symbol ≠ 0 →
        ∃ order ∈ loop.ordersFrom world symbolList, order.symbol = symbol) ∧
      Run.FillsFirst world.clock (loop.idsFrom world symbolList) loop.clockReads
        (loop.idsFrom world symbolList) loop.inbox := by
  rw [← Run.mem_closings_iff_fillsFirst _ _ (nodup_idsFrom world loop) filling.last, flat,
    List.all_eq_true]
  simp only [decide_eq_true_eq]
  constructor
  · intro flat
    constructor
    · intro symbol member held
      by_contra missing
      have noOrder : ∀ order ∈ loop.ordersFrom world symbolList, order.symbol ≠ symbol :=
        fun order here same => missing ⟨order, here, same⟩
      exact held ((filling.getPosition_of_no_order noOrder).symm.trans (flat symbol member))
    · intro id ours
      obtain ⟨order, member, rfl⟩ := List.mem_map.mp ours
      have within : order.symbol ∈ symbolList :=
        (symbols_sublist world loop.getPosition loop.state.bot.nextOrderId loop.quoteReads
          symbolList).subset (List.mem_map_of_mem member)
      exact (filling.flat_of_order member).mp (flat order.symbol within)
  · rintro ⟨priced, closed⟩ symbol member
    by_cases held : loop.getPosition symbol = 0
    · by_cases ordered : ∃ order ∈ loop.ordersFrom world symbolList, order.symbol = symbol
      · obtain ⟨order, here, rfl⟩ := ordered
        exact (filling.flat_of_order here).mpr (closed order.id (List.mem_map_of_mem here))
      · have noOrder : ∀ order ∈ loop.ordersFrom world symbolList, order.symbol ≠ symbol :=
          fun order here same => ordered ⟨order, here, same⟩
        exact (filling.getPosition_of_no_order noOrder).trans held
    · obtain ⟨order, here, rfl⟩ := priced symbol member held
      exact (filling.flat_of_order here).mpr (closed order.id (List.mem_map_of_mem here))

end Filled

/-- The wait for flat positions changes nothing, so it ends at once or never. -/
theorem exists_waitUntilFlat_iff (loop : LoopRun) :
    (∃ fuel, waitUntilFlat fuel loop = true) ↔ loop.flat = true := by
  constructor
  · rintro ⟨fuel, left⟩
    induction fuel with
    | zero => cases left
    | succ fuel inductionHypothesis =>
        rw [waitUntilFlat] at left
        split at left
        · assumption
        · exact inductionHypothesis left
  · intro flat
    exact ⟨1, if_pos flat⟩

theorem flat_iff_booked (world : World) (loop : LoopRun) :
    (symbolList.foldl (flattenSymbol world) loop).flat = true ↔
      ∀ symbol ∈ symbolList,
        loop.getPosition symbol + unwindBooked world symbol symbolList loop = 0 := by
  rw [flat, List.all_eq_true]
  simp only [decide_eq_true_eq, getPosition_unwound]

end LoopRun

/-! ### The two guards -/

/-- The guard of `run` and that of `run_with_mm`. -/
inductive PnlGuard where
  | run
  | runWithMm
deriving DecidableEq, Repr

namespace PnlGuard

open LoopRun

/-- The guard, and whether it gets out of its wait within `fuel` turns. -/
def call (world : LoopWorld) (fuel : Nat) (loop : LoopRun) : PnlGuard → LoopRun × Bool
  | .run => loop.runGuard world fuel
  | .runWithMm => loop.pnlGuard world fuel

/-- The loop when the guard has cancelled what it cancels and starts to unwind. -/
def cancelled (world : LoopWorld) (loop : LoopRun) : PnlGuard → LoopRun
  | .run => loop.cancelAllOpenOrders world
  | .runWithMm => ((loop.safeDelete world.toWorld .bid).safeDelete world.toWorld
      .ask).cancelAllOpenOrders world

/-- The guard gets out of its wait for flat positions. -/
def Leaves (world : LoopWorld) (loop : LoopRun) (guard : PnlGuard) : Prop :=
  ∃ fuel, (guard.call world fuel loop).2 = true

theorem leaves_iff_flat (world : LoopWorld) (loop : LoopRun) (guard : PnlGuard) :
    guard.Leaves world loop ↔
      (symbolList.foldl (flattenSymbol world.toWorld) (guard.cancelled world loop)).flat =
        true := by
  cases guard with
  | run => exact exists_waitUntilFlat_iff _
  | runWithMm => exact exists_waitUntilFlat_iff _

/-- On every stream, the guard leaves its wait exactly if the fills that its own waits book have
made every position zero.  Where the exchange fills all its orders completely, that is exactly if
every position had a price and each wait for an order read a closing fill: no order was
acknowledged before it was filled. -/
theorem leaves_iff (world : LoopWorld) (loop : LoopRun) (guard : PnlGuard) :
    (guard.Leaves world loop ↔ ∀ symbol ∈ symbolList,
      (guard.cancelled world loop).getPosition symbol +
        unwindBooked world.toWorld symbol symbolList (guard.cancelled world loop) = 0) ∧
    (UnwindFilled world.toWorld (guard.cancelled world loop) →
      (guard.Leaves world loop ↔
        (∀ symbol ∈ symbolList, (guard.cancelled world loop).getPosition symbol ≠ 0 →
          ∃ order ∈ (guard.cancelled world loop).ordersFrom world.toWorld symbolList,
            order.symbol = symbol) ∧
        Run.FillsFirst world.clock
          ((guard.cancelled world loop).idsFrom world.toWorld symbolList)
          (guard.cancelled world loop).clockReads
          ((guard.cancelled world loop).idsFrom world.toWorld symbolList)
          (guard.cancelled world loop).inbox)) := by
  constructor
  · rw [leaves_iff_flat]
    exact flat_iff_booked world.toWorld _
  · intro filling
    rw [leaves_iff_flat]
    exact filling.flat_iff

/-! ### Filled first, and acknowledged first -/

/-- A bot that has lost 4500 on dorm 3 and still holds five of it. -/
def losingBot : BotState :=
  { Run.loggedInBot with
    manager := (SymbolManager.empty.onFill 3 .BUY 10 1000).onFill 3 .SELL 5 100 }

/-- The loop of that bot, with what the exchange is going to say. -/
def losingLoop (inbox : List OeResponse) : LoopRun := .new (.new losingBot) inbox

/-- With nothing live and no quote there is nothing to cancel. -/
theorem cancelled_losingLoop (inbox : List OeResponse) (guard : PnlGuard) :
    guard.cancelled redeemableWorld (losingLoop inbox) = losingLoop inbox := by
  have nothingLive : redeemableWorld.setOrder.list ∅ = [] := Finset.sort_empty _
  have cancelsNothing : (losingLoop inbox).cancelAllOpenOrders redeemableWorld =
      losingLoop inbox :=
    congrArg (List.foldl (deleteOrder redeemableWorld.toWorld) (losingLoop inbox)) nothingLive
  cases guard with
  | run => exact cancelsNothing
  | runWithMm => exact cancelsNothing

theorem ordersFrom_losingLoop (inbox : List OeResponse) :
    (losingLoop inbox).ordersFrom redeemableWorld.toWorld symbolList =
      [⟨1001, 3, .SELL, 5⟩] := by
  have orders : unwindOrders redeemableWorld.toWorld losingBot.manager.getPosition 1001 0
      symbolList = [⟨1001, 3, .SELL, 5⟩] := by decide
  exact orders

/-- An exchange that answers the order with one fill, ACKs apart, fills it completely. -/
theorem unwindFilled_losingLoop {before : List OeResponse}
    (acks : ∀ response ∈ before, ∀ id, ¬ response.Fills id) :
    UnwindFilled redeemableWorld.toWorld (losingLoop (before ++ [.fill 1001 5 100 .CLOSED])) := by
  have ids : (losingLoop (before ++ [.fill 1001 5 100 .CLOSED])).idsFrom redeemableWorld.toWorld
      symbolList = [1001] := by
    rw [idsFrom, ordersFrom_losingLoop]
    rfl
  have inbox : (losingLoop (before ++ [.fill 1001 5 100 .CLOSED])).inbox =
      before ++ [.fill 1001 5 100 .CLOSED] := rfl
  refine ⟨?_, ?_, ?_, ?_, ?_⟩
  · rw [ordersFrom_losingLoop, inbox]
    intro order member
    rw [List.mem_singleton.mp member, filled_append,
      filled_eq_zero fun response here => acks response here 1001]
    rfl
  · rw [ordersFrom_losingLoop, inbox]
    intro order member
    rw [List.mem_singleton.mp member]
    exact ⟨5, 100, by decide, List.mem_append_right _ List.mem_cons_self⟩
  · have open_ : ∀ earlier ∈ before, ∀ later : OeResponse, ∀ id,
        closedByFill earlier = some id → ¬ later.Fills id :=
      fun earlier here later id closes =>
        absurd (fills_of_closedByFill closes) (acks earlier here id)
    rw [inbox]
    apply List.pairwise_append.mpr
    refine ⟨List.pairwise_of_forall_mem_list ?_, List.pairwise_singleton _ _, ?_⟩
    · exact fun earlier here later _ => open_ earlier here later
    · exact fun earlier here later _ => open_ earlier here later
  · rw [ids, inbox]
    exact ⟨fun _ _ later none_ => absurd none_ List.not_mem_nil, trivial⟩
  · rw [ids, inbox]
    intro response member id fills stranger
    rcases List.mem_append.mp member with here | last
    · exact absurd fills (acks response here id)
    · rw [List.mem_singleton.mp last] at fills
      exact absurd (List.mem_singleton.mpr fills.symm) stranger

/-- Filled at once, the position is gone when the guard starts to wait. -/
theorem leaves_iff_filledAtOnce :
    UnwindFilled redeemableWorld.toWorld
        (PnlGuard.run.cancelled redeemableWorld (losingLoop [.fill 1001 5 100 .CLOSED])) ∧
      PnlGuard.run.Leaves redeemableWorld (losingLoop [.fill 1001 5 100 .CLOSED]) := by
  have filling : UnwindFilled redeemableWorld.toWorld
      (PnlGuard.run.cancelled redeemableWorld (losingLoop [.fill 1001 5 100 .CLOSED])) := by
    rw [cancelled_losingLoop]
    exact @unwindFilled_losingLoop [] fun response none_ => absurd none_ List.not_mem_nil
  refine ⟨filling, ((leaves_iff _ _ _).2 filling).mpr ?_⟩
  rw [cancelled_losingLoop, idsFrom, ordersFrom_losingLoop]
  refine ⟨?_, ⟨1001, by decide, List.mem_cons_self⟩, trivial⟩
  exact @of_decide_eq_true _ (List.decidableBAll _ _) (by decide)

/-- Acknowledged first, the order's wait ends on the ACK: the fill is never read, and neither guard
ever leaves its wait. -/
theorem acknowledged_first_never_leaves :
    losingBot.manager.pnlNearLimit = true ∧ ∀ guard : PnlGuard,
      UnwindFilled redeemableWorld.toWorld (guard.cancelled redeemableWorld
        (losingLoop [.ack 1001, .fill 1001 5 100 .CLOSED])) ∧
      ¬ guard.Leaves redeemableWorld (losingLoop [.ack 1001, .fill 1001 5 100 .CLOSED]) := by
  refine ⟨by decide +kernel, ?_⟩
  intro guard
  rw [leaves_iff_flat, cancelled_losingLoop]
  constructor
  · apply @unwindFilled_losingLoop [.ack 1001]
    intro response member id fills
    rw [List.mem_singleton.mp member] at fills
    exact fills
  · decide +kernel

end PnlGuard

end HftAlgorithms
