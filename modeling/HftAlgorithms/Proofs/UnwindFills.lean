/-
Module: HftAlgorithms.Proofs.UnwindFills
Purpose: What the unwind of the PnL guard does to the positions: which orders it
  sends, and what the waits for them book of the fills that the exchange sends back.
Trusted boundary: none
Main exports: UnwindOrder, LoopRun.unwindOrders, LoopRun.flattenSymbol_sent,
  LoopRun.unwindBooked, LoopRun.getPosition_unwound, routedFills, LoopRun.Underway,
  LoopRun.getPosition_unwind
-/
import HftAlgorithms.Arb.MarketMaker
import HftAlgorithms.Proofs.LoopRuns
import HftAlgorithms.Proofs.WaitRows

namespace HftAlgorithms

open OEClient (closedByFill)

/-! ### The orders of an unwind -/

/-- An order of the guard against a position. -/
structure UnwindOrder where
  id : UInt64
  symbol : UInt32
  side : Side
  qty : UInt32
deriving DecidableEq, Repr

namespace LoopRun

section Orders

variable (world : World)

/-- The price that the order against a position reads. -/
def unwindPrice (quotes : Nat) (pos : Int32) (symbol : UInt32) : Int32 :=
  if pos > 0 then world.bestBidPrice quotes symbol else world.bestAskPrice quotes symbol

/-- The orders that the guard sends at these positions, from the next id and the number of quotes
read so far: one for every position with a price. -/
def unwindOrders (position : UInt32 → Int32) :
    UInt64 → Nat → List UInt32 → List UnwindOrder
  | _, _, [] => []
  | nextId, quotes, symbol :: symbols =>
      let pos := position symbol
      if pos = 0 then unwindOrders position nextId quotes symbols
      else if unwindPrice world quotes pos symbol ≤ 0 then
        unwindOrders position nextId (quotes + 1) symbols
      else
        ⟨nextId, symbol, if pos > 0 then .SELL else .BUY, pos.abs.toUInt32⟩ ::
          unwindOrders position (nextId + 1) (quotes + 1) symbols

/-- Only the positions in these symbols count. -/
theorem unwindOrders_congr {first second : UInt32 → Int32} {symbols : List UInt32}
    (same : ∀ symbol ∈ symbols, first symbol = second symbol) (nextId : UInt64) (quotes : Nat) :
    unwindOrders world first nextId quotes symbols =
      unwindOrders world second nextId quotes symbols := by
  induction symbols generalizing nextId quotes with
  | nil => rfl
  | cons symbol symbols inductionHypothesis =>
      have rest := inductionHypothesis fun later member =>
        same later (List.mem_cons_of_mem _ member)
      simp only [unwindOrders, same symbol List.mem_cons_self, rest]

/-- An order is against the whole position. -/
theorem order_of_mem {position : UInt32 → Int32} {nextId : UInt64} {quotes : Nat}
    {symbols : List UInt32} {order : UnwindOrder}
    (member : order ∈ unwindOrders world position nextId quotes symbols) :
    position order.symbol ≠ 0 ∧
      order.side = (if position order.symbol > 0 then .SELL else .BUY) ∧
      order.qty = (position order.symbol).abs.toUInt32 := by
  induction symbols generalizing nextId quotes with
  | nil => cases member
  | cons symbol symbols inductionHypothesis =>
      rw [unwindOrders] at member
      split at member
      · exact inductionHypothesis member
      · rename_i held
        split at member
        · exact inductionHypothesis member
        · rcases List.mem_cons.mp member with rfl | later
          · exact ⟨held, rfl, rfl⟩
          · exact inductionHypothesis later

theorem symbols_sublist (position : UInt32 → Int32) (nextId : UInt64) (quotes : Nat)
    (symbols : List UInt32) :
    ((unwindOrders world position nextId quotes symbols).map UnwindOrder.symbol).Sublist
      symbols := by
  induction symbols generalizing nextId quotes with
  | nil => exact List.Sublist.refl _
  | cons symbol symbols inductionHypothesis =>
      rw [unwindOrders]
      split
      · exact (inductionHypothesis _ _).cons _
      · split
        · exact (inductionHypothesis _ _).cons _
        · exact (inductionHypothesis _ _).cons_cons _

/-- The orders get ids in a row. -/
theorem ids_eq_legOrders (position : UInt32 → Int32) (nextId : UInt64) (quotes : Nat)
    (symbols : List UInt32) :
    (unwindOrders world position nextId quotes symbols).map UnwindOrder.id =
      (BotState.legOrders nextId ((unwindOrders world position nextId quotes symbols).map
        UnwindOrder.symbol)).map Prod.fst := by
  induction symbols generalizing nextId quotes with
  | nil => rfl
  | cons symbol symbols inductionHypothesis =>
      rw [unwindOrders]
      split
      · exact inductionHypothesis _ _
      · split
        · exact inductionHypothesis _ _
        · exact congrArg (nextId :: ·) (inductionHypothesis _ _)

theorem nodup_ids (position : UInt32 → Int32) (nextId : UInt64) (quotes : Nat)
    {symbols : List UInt32} (few : symbols.length < UInt64.size) :
    ((unwindOrders world position nextId quotes symbols).map UnwindOrder.id).Nodup := by
  rw [ids_eq_legOrders]
  apply BotState.nodup_legOrders
  exact Nat.lt_of_le_of_lt (symbols_sublist world position nextId quotes symbols).length_le few

end Orders

/-! ### One turn of the unwind -/

section Turn

variable (world : World) (loop : LoopRun) (symbol : UInt32)

/-- The bot when the order against the position is on its way. -/
def unwindSent : BotState :=
  let pos := loop.getPosition symbol
  loop.state.bot.act (.sendOrder symbol (if pos > 0 then .SELL else .BUY) pos.abs.toUInt32
    (unwindPrice world loop.quoteReads pos symbol))

/-- What the wait for it makes of the stream. -/
def unwindWait : StreamScan.Scan OeResponse Bool :=
  OEClient.waitScan (world.clock loop.clockReads) (world.clock (loop.clockReads + 1))
    loop.state.bot.nextOrderId loop.inbox

theorem unwindWait_append :
    (loop.unwindWait world).read ++ (loop.unwindWait world).unread = loop.inbox :=
  Run.waitScan_read_append_unread _ _ _ _

variable {loop symbol}

theorem flattenSymbol_flat (flat : loop.getPosition symbol = 0) :
    loop.flattenSymbol world symbol = loop := by
  simp [flattenSymbol, flat]

theorem flattenSymbol_unpriced (held : loop.getPosition symbol ≠ 0)
    (missing : unwindPrice world loop.quoteReads (loop.getPosition symbol) symbol ≤ 0) :
    loop.flattenSymbol world symbol = loop.quoted := by
  rw [flattenSymbol]
  exact (if_neg held).trans (if_pos missing)

/-- A position with a price takes an order and a wait. -/
theorem flattenSymbol_sent (held : loop.getPosition symbol ≠ 0)
    (priced : ¬ unwindPrice world loop.quoteReads (loop.getPosition symbol) symbol ≤ 0) :
    let after := loop.flattenSymbol world symbol
    after.state.bot = (loop.unwindWait world).read.foldl
        (fun bot response => bot.act (.receive response)) (loop.unwindSent world symbol) ∧
      after.inbox = (loop.unwindWait world).unread ∧ after.clockReads = loop.clockReads + 2 ∧
      after.quoteReads = loop.quoteReads + 1 ∧
      after.state.bot.nextOrderId = loop.state.bot.nextOrderId + 1 := by
  have turn : loop.flattenSymbol world symbol = loop.absorb
      (loop.quoted.toRun.sendNewOrder world symbol
        (if loop.getPosition symbol > 0 then .SELL else .BUY) (loop.getPosition symbol).abs.toUInt32
        (unwindPrice world loop.quoteReads (loop.getPosition symbol) symbol)).1 := by
    rw [flattenSymbol]
    exact (if_neg held).trans (if_neg priced)
  obtain ⟨state, inbox, reads⟩ := Run.foldl_receive (loop.unwindWait world).read
    { (loop.quoted.toRun.sendOrderNoWait symbol
        (if loop.getPosition symbol > 0 then .SELL else .BUY) (loop.getPosition symbol).abs.toUInt32
        (unwindPrice world loop.quoteReads (loop.getPosition symbol) symbol)).tick 2 with
      inbox := (loop.unwindWait world).unread }
  have quotes := Run.quoteReads_receive (loop.unwindWait world).read
    { (loop.quoted.toRun.sendOrderNoWait symbol
        (if loop.getPosition symbol > 0 then .SELL else .BUY) (loop.getPosition symbol).abs.toUInt32
        (unwindPrice world loop.quoteReads (loop.getPosition symbol) symbol)).tick 2 with
      inbox := (loop.unwindWait world).unread }
  rw [turn]
  refine ⟨state, inbox, reads, quotes, ?_⟩
  have nextId := Run.nextOrderId_receive (loop.unwindWait world).read (loop.unwindSent world symbol)
  exact (congrArg BotState.nextOrderId state).trans nextId

/-- What the wait of a turn books for a symbol. -/
def turnBooked (loop : LoopRun) (symbol ofSymbol : UInt32) : Int32 :=
  let pos := loop.getPosition symbol
  if pos = 0 ∨ unwindPrice world loop.quoteReads pos symbol ≤ 0 then 0
  else
    BotState.fillsBooked ofSymbol (loop.unwindSent world symbol).orderMap
      (loop.unwindSent world symbol).mmOrderMap (loop.unwindWait world).read

/-- What the waits of all turns book for it. -/
def unwindBooked (ofSymbol : UInt32) : List UInt32 → LoopRun → Int32
  | [], _ => 0
  | symbol :: symbols, loop =>
      turnBooked world loop symbol ofSymbol +
        unwindBooked ofSymbol symbols (loop.flattenSymbol world symbol)

theorem getPosition_flattenSymbol (loop : LoopRun) (symbol ofSymbol : UInt32) :
    (loop.flattenSymbol world symbol).getPosition ofSymbol =
      loop.getPosition ofSymbol + turnBooked world loop symbol ofSymbol := by
  by_cases flat : loop.getPosition symbol = 0
  · rw [flattenSymbol_flat world flat, turnBooked, if_pos (Or.inl flat), Int32.add_zero]
  · by_cases missing : unwindPrice world loop.quoteReads (loop.getPosition symbol) symbol ≤ 0
    · rw [flattenSymbol_unpriced world flat missing, turnBooked, if_pos (Or.inr missing),
        Int32.add_zero]
      rfl
    · obtain ⟨bot, -⟩ := flattenSymbol_sent world flat missing
      rw [turnBooked, if_neg (not_or.mpr ⟨flat, missing⟩), getPosition, bot]
      exact BotState.getPosition_receive ofSymbol _ _

/-- The positions change by what the waits book. -/
theorem getPosition_unwound (symbols : List UInt32) (loop : LoopRun) (ofSymbol : UInt32) :
    (symbols.foldl (flattenSymbol world) loop).getPosition ofSymbol =
      loop.getPosition ofSymbol + unwindBooked world ofSymbol symbols loop := by
  induction symbols generalizing loop with
  | nil => exact (Int32.add_zero _).symm
  | cons symbol symbols inductionHypothesis =>
      rw [List.foldl_cons, inductionHypothesis, getPosition_flattenSymbol, unwindBooked,
        Int32.add_assoc]

end Turn

end LoopRun

/-! ### Fills with known routes -/

/-- The route of each order. -/
abbrev Routes := UInt64 → Option (UInt32 × Side)

/-- What a fill of an order adds to the position in `symbol` when each order has the route said. -/
def routedQty (route : Routes) (symbol : UInt32) (orderId : UInt64) (qty : UInt32) : Int32 :=
  match route orderId with
  | some (routed, side) => if symbol = routed then signedQty side qty else 0
  | none => 0

/-- What the fills among the responses add to it. -/
def routedFills (route : Routes) (symbol : UInt32) : List OeResponse → Int32
  | [] => 0
  | .fill orderId qty _ _ :: rest =>
      routedQty route symbol orderId qty + routedFills route symbol rest
  | _ :: rest => routedFills route symbol rest

theorem routedQty_own {route : Routes} {symbol : UInt32} {orderId : UInt64} {side : Side}
    (own : route orderId = some (symbol, side)) (qty : UInt32) :
    routedQty route symbol orderId qty = signedQty side qty := by
  simp [routedQty, own]

theorem routedQty_elsewhere {route : Routes} {symbol : UInt32} {orderId : UInt64}
    (elsewhere : ∀ side, route orderId ≠ some (symbol, side)) (qty : UInt32) :
    routedQty route symbol orderId qty = 0 := by
  rw [routedQty]
  cases found : route orderId with
  | none => rfl
  | some routedSide =>
      obtain ⟨routed, side⟩ := routedSide
      apply if_neg
      rintro rfl
      exact elsewhere side found

/-- The two maps give the fills among the responses the routes said. -/
def RoutesAs (route : Routes) (orders mmOrders : OrderMap) (responses : List OeResponse) : Prop :=
  ∀ response ∈ responses, ∀ id, response.Fills id →
    orders.lookup id = route id ∧ (route id = none → mmOrders.lookup id = none)

theorem routedFills_append (route : Routes) (symbol : UInt32) (first second : List OeResponse) :
    routedFills route symbol (first ++ second) =
      routedFills route symbol first + routedFills route symbol second := by
  induction first with
  | nil => exact (Int32.zero_add _).symm
  | cons response rest inductionHypothesis =>
      cases response with
      | fill orderId qty price flags =>
          rw [List.cons_append, routedFills, routedFills, inductionHypothesis, Int32.add_assoc]
      | ack orderId => exact inductionHypothesis
      | reject orderId reason => exact inductionHypothesis
      | closed orderId => exact inductionHypothesis
      | other => exact inductionHypothesis

theorem routedFills_eq_zero {route : Routes} {symbol : UInt32} {responses : List OeResponse}
    (elsewhere : ∀ response ∈ responses, ∀ id side, response.Fills id →
      route id ≠ some (symbol, side)) :
    routedFills route symbol responses = 0 := by
  induction responses with
  | nil => rfl
  | cons response rest inductionHypothesis =>
      have later := inductionHypothesis fun message member =>
        elsewhere message (List.mem_cons_of_mem _ member)
      cases response with
      | fill orderId qty price flags =>
          have notHere : ∀ side, route orderId ≠ some (symbol, side) := fun side =>
            elsewhere _ List.mem_cons_self orderId side rfl
          rw [routedFills, later, routedQty_elsewhere notHere, Int32.add_zero]
      | ack orderId => exact later
      | reject orderId reason => exact later
      | closed orderId => exact later
      | other => exact later

/-- The fills that one order alone has in a symbol. -/
theorem routedFills_of_order {route : Routes} {id : UInt64} {symbol : UInt32} {side : Side}
    (own : route id = some (symbol, side))
    (only : ∀ other otherSide, route other = some (symbol, otherSide) → other = id)
    (responses : List OeResponse) :
    routedFills route symbol responses =
      if side = .BUY then Int32.ofNat (filled id responses)
      else -Int32.ofNat (filled id responses) := by
  induction responses with
  | nil =>
      simp [routedFills, filled]
  | cons response rest inductionHypothesis =>
      rw [filled_cons]
      cases response with
      | fill orderId qty price flags =>
          rw [routedFills, inductionHypothesis]
          by_cases same : orderId = id
          · have word : Int32.ofNat qty.toNat = qty.toInt32 := by
              rw [← UInt32.toInt32_ofNat', UInt32.ofNat_toNat]
            rw [same, routedQty_own own, OeResponse.filledQty, if_pos rfl, Int32.ofNat_add, word,
              signedQty]
            split
            · rfl
            · rw [Int32.neg_add, Int32.sub_eq_add_neg]
          · have elsewhere : ∀ otherSide, route orderId ≠ some (symbol, otherSide) :=
              fun otherSide found => same (only orderId otherSide found)
            rw [routedQty_elsewhere elsewhere, Int32.zero_add, OeResponse.filledQty, if_neg same,
              Nat.zero_add]
      | ack orderId => simpa [routedFills, OeResponse.filledQty] using inductionHypothesis
      | reject orderId reason => simpa [routedFills, OeResponse.filledQty] using inductionHypothesis
      | closed orderId => simpa [routedFills, OeResponse.filledQty] using inductionHypothesis
      | other => simpa [routedFills, OeResponse.filledQty] using inductionHypothesis

namespace BotState

/-- A response that does not close an order with a fill leaves its entry in the arb's map. -/
theorem lookup_receive {response : OeResponse} {id : UInt64} (bot : BotState)
    (notClosed : closedByFill response ≠ some id) :
    (bot.act (.receive response)).orderMap.lookup id = bot.orderMap.lookup id := by
  cases response with
  | fill orderId qty price flags =>
      cases arb : bot.orderMap.lookup orderId with
      | some route =>
          rw [(receive_arbFill qty price flags arb).2.1]
          split
          · rename_i closes
            subst closes
            rw [FiniteMap.lookup_erase_eq, if_neg]
            rintro rfl
            exact notClosed rfl
          · rfl
      | none =>
          rw [(receive_unroutedFill qty price flags arb).1]
  | ack orderId => rfl
  | reject orderId reason => rfl
  | closed orderId => rfl
  | other => rfl

theorem lookup_foldl_receive {responses : List OeResponse} {id : UInt64} (bot : BotState)
    (notClosed : id ∉ closings responses) :
    (responses.foldl (fun bot response => bot.act (.receive response)) bot).orderMap.lookup id =
      bot.orderMap.lookup id := by
  induction responses generalizing bot with
  | nil => rfl
  | cons response rest inductionHypothesis =>
      rw [List.foldl_cons, inductionHypothesis]
      · apply lookup_receive
        intro closes
        exact notClosed (List.mem_filterMap.mpr ⟨response, List.mem_cons_self, closes⟩)
      · intro later
        obtain ⟨message, member, closes⟩ := List.mem_filterMap.mp later
        exact notClosed (List.mem_filterMap.mpr ⟨message, List.mem_cons_of_mem _ member, closes⟩)

/-- Reading adds no entry to the market maker's map. -/
theorem mmLookup_foldl_receive (responses : List OeResponse) {id : UInt64} {bot : BotState}
    (unrouted : bot.mmOrderMap.lookup id = none) :
    (responses.foldl (fun bot response => bot.act (.receive response)) bot).mmOrderMap.lookup id =
      none := by
  induction responses generalizing bot with
  | nil => exact unrouted
  | cons response rest inductionHypothesis =>
      apply inductionHypothesis
      cases found : (bot.act (.receive response)).mmOrderMap.lookup id with
      | none => rfl
      | some route =>
          rw [(bot.maps_receive response).2.lookup_before found] at unrouted
          cases unrouted

/-- Fills book what their routes say, as long as no order is filled after it has been closed. -/
theorem fillsBooked_eq_routedFills {route : Routes} {symbol : UInt32} {orders mmOrders : OrderMap}
    {responses : List OeResponse} (routes : RoutesAs route orders mmOrders responses)
    (last : ClosesLast responses) :
    fillsBooked symbol orders mmOrders responses = routedFills route symbol responses := by
  induction responses generalizing orders mmOrders with
  | nil => rfl
  | cons response rest inductionHypothesis =>
      obtain ⟨closesHere, lastLater⟩ := List.pairwise_cons.mp last
      have later : RoutesAs route orders mmOrders rest := fun message member =>
        routes message (List.mem_cons_of_mem _ member)
      cases response with
      | fill orderId qty price flags =>
          obtain ⟨arb, mm⟩ := routes _ List.mem_cons_self orderId rfl
          rw [fillsBooked, arb, routedFills, routedQty]
          cases found : route orderId with
          | none =>
              rw [mm found]
              exact (inductionHypothesis later lastLater).trans (Int32.zero_add _).symm
          | some routedSide =>
              obtain ⟨routed, side⟩ := routedSide
              have kept : RoutesAs route
                  (if flags = .CLOSED then orders.erase orderId else orders) mmOrders rest := by
                split
                · rename_i closes
                  subst closes
                  intro message member id fills
                  have notClosed : id ≠ orderId := by
                    rintro rfl
                    exact closesHere message member id rfl fills
                  rw [FiniteMap.lookup_erase_eq, if_neg notClosed]
                  exact later message member id fills
                · exact later
              exact congrArg (_ + ·) (inductionHypothesis kept lastLater)
      | closed orderId =>
          have kept : RoutesAs route orders (mmOrders.erase orderId) rest := by
            intro message member id fills
            obtain ⟨arb, mm⟩ := later message member id fills
            refine ⟨arb, fun none_ => ?_⟩
            rw [FiniteMap.lookup_erase_eq, mm none_, ite_self]
          exact inductionHypothesis kept lastLater
      | ack orderId => exact inductionHypothesis later lastLater
      | reject orderId reason => exact inductionHypothesis later lastLater
      | other => exact inductionHypothesis later lastLater

end BotState

/-! ### The whole unwind -/

namespace LoopRun

/-- No order is filled by what is read before it is sent. -/
def SentFirst (clock : Nat → Int) : Nat → List UInt64 → List OeResponse → Prop
  | _, [], _ => True
  | reads, id :: ids, stream =>
      let waited := OEClient.waitScan (clock reads) (clock (reads + 1)) id stream
      (∀ response ∈ waited.read, ∀ later ∈ ids, ¬ response.Fills later) ∧
        SentFirst clock (reads + 2) ids waited.unread

section Unwind

variable (world : World)

/-- The orders of an unwind that goes on here over these symbols. -/
def ordersFrom (loop : LoopRun) (symbols : List UInt32) : List UnwindOrder :=
  unwindOrders world loop.getPosition loop.state.bot.nextOrderId loop.quoteReads symbols

/-- Their ids. -/
def idsFrom (loop : LoopRun) (symbols : List UInt32) : List UInt64 :=
  (loop.ordersFrom world symbols).map UnwindOrder.id

/-- The unwind over these symbols is about to start or under way: what the exchange still has to say
fills orders where `route` puts them. -/
structure Underway (route : Routes) (symbols : List UInt32) (loop : LoopRun) : Prop where
  last : ClosesLast loop.inbox
  sentFirst : SentFirst world.clock loop.clockReads (loop.idsFrom world symbols) loop.inbox
  own : ∀ order ∈ loop.ordersFrom world symbols, route order.id = some (order.symbol, order.side)
  sent : ∀ response ∈ loop.inbox, ∀ id, response.Fills id → id ∉ loop.idsFrom world symbols →
    loop.state.bot.orderMap.lookup id = route id ∧
      (route id = none → loop.state.bot.mmOrderMap.lookup id = none)
  elsewhere : ∀ id symbol side, route id = some (symbol, side) → symbol ∈ symbols →
    id ∈ loop.idsFrom world symbols

variable {route : Routes} {symbol : UInt32} {symbols : List UInt32} {loop : LoopRun}

/-- The order of this turn and those of the later ones. -/
theorem ordersFrom_sent (held : loop.getPosition symbol ≠ 0)
    (priced : ¬ unwindPrice world loop.quoteReads (loop.getPosition symbol) symbol ≤ 0) :
    loop.ordersFrom world (symbol :: symbols) =
      ⟨loop.state.bot.nextOrderId, symbol,
        if loop.getPosition symbol > 0 then .SELL else .BUY,
        (loop.getPosition symbol).abs.toUInt32⟩ ::
      unwindOrders world loop.getPosition (loop.state.bot.nextOrderId + 1) (loop.quoteReads + 1)
        symbols := by
  rw [ordersFrom, unwindOrders]
  exact (if_neg held).trans (if_neg priced)

namespace Underway

variable (under : Underway world route (symbol :: symbols) loop)
  (fresh : symbol ∉ symbols) (held : loop.getPosition symbol ≠ 0)
  (priced : ¬ unwindPrice world loop.quoteReads (loop.getPosition symbol) symbol ≤ 0)

/-- The ids of the orders that come after the one of this turn. -/
def laterIds (loop : LoopRun) (symbols : List UInt32) : List UInt64 :=
  (unwindOrders world loop.getPosition (loop.state.bot.nextOrderId + 1) (loop.quoteReads + 1)
    symbols).map UnwindOrder.id

include held priced in
theorem idsFrom_sent : loop.idsFrom world (symbol :: symbols) =
    loop.state.bot.nextOrderId :: laterIds world loop symbols := by
  rw [idsFrom, ordersFrom_sent world held priced]
  rfl

theorem last_split (under : Underway world route (symbol :: symbols) loop) :
    ClosesLast ((loop.unwindWait world).read ++ (loop.unwindWait world).unread) := by
  have last := under.last
  rw [← unwindWait_append world loop] at last
  exact last

/-- A turn that sends nothing leaves the rest under way. -/
theorem skip (under : Underway world route (symbol :: symbols) loop) {later : LoopRun}
    (orders : loop.ordersFrom world (symbol :: symbols) = later.ordersFrom world symbols)
    (state : later.state = loop.state) (inbox : later.inbox = loop.inbox)
    (reads : later.clockReads = loop.clockReads) : Underway world route symbols later := by
  obtain ⟨last, sentFirst, own, sent, elsewhere⟩ := under
  rw [idsFrom, orders] at sentFirst sent elsewhere
  rw [orders] at own
  refine ⟨?_, ?_, own, ?_, ?_⟩
  · rw [inbox]
    exact last
  · rw [inbox, reads]
    exact sentFirst
  · rw [inbox, state]
    exact sent
  · intro id symbol side there member
    exact elsewhere id symbol side there (List.mem_cons_of_mem _ member)

include under held priced

theorem route_own : route loop.state.bot.nextOrderId =
    some (symbol, if loop.getPosition symbol > 0 then .SELL else .BUY) := by
  apply under.own ⟨loop.state.bot.nextOrderId, symbol, _, (loop.getPosition symbol).abs.toUInt32⟩
  rw [ordersFrom_sent world held priced]
  exact List.mem_cons_self

theorem waited : (∀ response ∈ (loop.unwindWait world).read, ∀ id ∈ laterIds world loop symbols,
      ¬ response.Fills id) ∧
    SentFirst world.clock (loop.clockReads + 2) (laterIds world loop symbols)
      (loop.unwindWait world).unread := by
  have sentFirst := under.sentFirst
  rw [idsFrom_sent world held priced] at sentFirst
  exact sentFirst

/-- The order's own route, and those of the orders sent before it, are in the map. -/
theorem routed {response : OeResponse} (member : response ∈ loop.inbox) {id : UInt64}
    (fills : response.Fills id) (notLater : id ∉ laterIds world loop symbols) :
    (loop.unwindSent world symbol).orderMap.lookup id = route id ∧
      (route id = none → (loop.unwindSent world symbol).mmOrderMap.lookup id = none) := by
  have own := under.route_own world held priced
  have lookup : (loop.unwindSent world symbol).orderMap.lookup id =
      if id = loop.state.bot.nextOrderId then
        some (symbol, if loop.getPosition symbol > 0 then .SELL else .BUY)
      else loop.state.bot.orderMap.lookup id :=
    FiniteMap.lookup_insert_eq _ _ _ _
  by_cases same : id = loop.state.bot.nextOrderId
  · rw [lookup, if_pos same, same, own]
    exact ⟨rfl, fun unrouted => by cases unrouted⟩
  · rw [lookup, if_neg same]
    apply under.sent response member id fills
    rw [idsFrom_sent world held priced, List.mem_cons, not_or]
    exact ⟨same, notLater⟩

/-- While the order is on its way, the maps route what its wait reads. -/
theorem routesAs :
    RoutesAs route (loop.unwindSent world symbol).orderMap
      (loop.unwindSent world symbol).mmOrderMap (loop.unwindWait world).read := by
  intro response member id fills
  have within : response ∈ loop.inbox := by
    rw [← unwindWait_append world loop]
    exact List.mem_append_left _ member
  apply under.routed world held priced within fills
  intro later
  exact (under.waited world held priced).1 response member id later fills

/-- The turn books what the routes say of the fills it reads. -/
theorem getPosition_turn (ofSymbol : UInt32) :
    (loop.flattenSymbol world symbol).getPosition ofSymbol =
      loop.getPosition ofSymbol + routedFills route ofSymbol (loop.unwindWait world).read := by
  rw [getPosition_flattenSymbol, turnBooked, if_neg (not_or.mpr ⟨held, priced⟩),
    BotState.fillsBooked_eq_routedFills (under.routesAs world held priced)
      (under.last_split world).read]

include fresh

/-- Only orders that are still to be sent are for the later symbols. -/
theorem later_of_route {id : UInt64} {later : UInt32} {side : Side}
    (there : route id = some (later, side)) (member : later ∈ symbols) :
    id ∈ laterIds world loop symbols := by
  have ours := under.elsewhere id later side there (List.mem_cons_of_mem _ member)
  rw [idsFrom_sent world held priced] at ours
  rcases List.mem_cons.mp ours with rfl | after
  · rw [under.route_own world held priced] at there
    cases there
    exact absurd member fresh
  · exact after

/-- The wait moves none of the later positions. -/
theorem positions_later {later : UInt32} (member : later ∈ symbols) :
    (loop.flattenSymbol world symbol).getPosition later = loop.getPosition later := by
  rw [under.getPosition_turn world held priced, routedFills_eq_zero, Int32.add_zero]
  intro response read id side fills there
  have after := under.later_of_route world fresh held priced there member
  exact (under.waited world held priced).1 response read id after fills

theorem ordersFrom_next : (loop.flattenSymbol world symbol).ordersFrom world symbols =
    unwindOrders world loop.getPosition (loop.state.bot.nextOrderId + 1) (loop.quoteReads + 1)
      symbols := by
  obtain ⟨-, -, -, quotes, nextId⟩ := flattenSymbol_sent world held priced
  rw [ordersFrom, quotes, nextId]
  apply unwindOrders_congr
  intro later member
  exact under.positions_later world fresh held priced member

/-- After the turn the rest of the unwind is under way. -/
theorem next : Underway world route symbols (loop.flattenSymbol world symbol) := by
  obtain ⟨bot, inbox, reads, -, -⟩ := flattenSymbol_sent world held priced
  have orders := under.ordersFrom_next world fresh held priced
  have ids : (loop.flattenSymbol world symbol).idsFrom world symbols =
      laterIds world loop symbols := congrArg (List.map UnwindOrder.id) orders
  have split := under.last_split world
  refine ⟨?_, ?_, ?_, ?_, ?_⟩
  · rw [inbox]
    exact (List.pairwise_append.mp split).2.1
  · rw [inbox, reads, ids]
    exact (under.waited world held priced).2
  · intro order member
    apply under.own
    rw [orders] at member
    rw [ordersFrom_sent world held priced]
    exact List.mem_cons_of_mem _ member
  · rw [inbox, bot, ids]
    intro response unread id fills notLater
    have notClosed : id ∉ closings (loop.unwindWait world).read := by
      intro closed
      obtain ⟨closing, read, closes⟩ := List.mem_filterMap.mp closed
      exact (List.pairwise_append.mp split).2.2 closing read response unread id closes fills
    have within : response ∈ loop.inbox := by
      rw [← unwindWait_append world loop]
      exact List.mem_append_right _ unread
    obtain ⟨arb, mm⟩ := under.routed world held priced within fills notLater
    refine ⟨(BotState.lookup_foldl_receive _ notClosed).trans arb, ?_⟩
    intro unrouted
    exact BotState.mmLookup_foldl_receive _ (mm unrouted)
  · rw [ids]
    intro id later side there member
    exact under.later_of_route world fresh held priced there member

end Underway

/-- Every position changes by the fills that the waits for the orders read. -/
theorem getPosition_unwind (distinct : symbols.Nodup)
    (under : Underway world route symbols loop) (ofSymbol : UInt32) :
    (symbols.foldl (flattenSymbol world) loop).getPosition ofSymbol =
      loop.getPosition ofSymbol +
        routedFills route ofSymbol
          (Run.waits world.clock loop.clockReads (loop.idsFrom world symbols) loop.inbox).read := by
  induction symbols generalizing loop with
  | nil => exact (Int32.add_zero _).symm
  | cons symbol symbols inductionHypothesis =>
      obtain ⟨fresh, distinct⟩ := List.nodup_cons.mp distinct
      rw [List.foldl_cons]
      by_cases flat : loop.getPosition symbol = 0
      · have ids : loop.ordersFrom world (symbol :: symbols) = loop.ordersFrom world symbols := by
          rw [ordersFrom, unwindOrders]
          exact if_pos flat
        rw [flattenSymbol_flat world flat, idsFrom, ids]
        exact inductionHypothesis distinct (under.skip world ids rfl rfl rfl)
      · by_cases missing :
            unwindPrice world loop.quoteReads (loop.getPosition symbol) symbol ≤ 0
        · have ids : loop.ordersFrom world (symbol :: symbols) =
              loop.quoted.ordersFrom world symbols := by
            rw [ordersFrom, unwindOrders]
            exact (if_neg flat).trans (if_pos missing)
          rw [flattenSymbol_unpriced world flat missing, idsFrom, ids]
          exact inductionHypothesis distinct (under.skip world ids rfl rfl rfl)
        · have next := under.next world fresh flat missing
          obtain ⟨-, inbox, reads, -, -⟩ := flattenSymbol_sent world flat missing
          have ids : (loop.flattenSymbol world symbol).idsFrom world symbols =
              Underway.laterIds world loop symbols :=
            congrArg (List.map UnwindOrder.id) (under.ordersFrom_next world fresh flat missing)
          rw [inductionHypothesis distinct next, under.getPosition_turn world flat missing,
            Int32.add_assoc, ← routedFills_append, ids, inbox, reads,
            Underway.idsFrom_sent world flat missing]
          rfl

end Unwind

end LoopRun

end HftAlgorithms
