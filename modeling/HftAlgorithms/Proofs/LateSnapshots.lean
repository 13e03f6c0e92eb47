/-
Module: HftAlgorithms.Proofs.LateSnapshots
Purpose: What a snapshot packet makes of a symbol, whatever was known of it
  before: the listener never compares `last_md_seq_num` with anything, so an old
  packet changes the symbol unless it happens to tell what is known already.
Trusted boundary: none
Main exports: Listener.taken, OrderBook.Tallied, Listener.leftRoute, Listener.handled,
  Listener.Unchanged, Listener.Reproduces, Listener.unchanged_iff_reproduces
-/
import HftAlgorithms.Proofs.SnapshotReading
import HftAlgorithms.Proofs.TopOfBook

namespace HftAlgorithms

open FiniteMap StateMachine

/-! ### Books built from NEW_ORDERs -/

/-- The NEW_ORDERs for one symbol among the records of a packet. -/
def ordersFor (symbol : UInt32) (records : List SnapshotRecord) : List NewOrder :=
  records.filterMap fun record =>
    match record with
    | .order msg => if msg.symbol = symbol then some msg else none
    | _ => none

namespace OrderBook

/-- The order that a book built from the messages holds under an id: the first about the id that
it would store. -/
def firstStorable (orders : List NewOrder) (id : UInt64) : Option OrderInfo :=
  (orders.find? fun msg => msg.orderId = id ∧ msg.info.Storable).map NewOrder.info

/-- A NEW_ORDER leaves what rests under its id, or stores itself there. -/
theorem lookup_next_newOrder {book : OrderBook} {msg : NewOrder}
    (typed : msg.header.msgType = .NEW_ORDER) (id : UInt64) :
    (book.next (.newOrder msg)).orders.lookup id =
      (book.orders.lookup id).or (if msg.orderId = id ∧ msg.info.Storable then some msg.info
        else none) := by
  rw [next, handle]
  by_cases accepts : book.Accepts msg
  · rw [handleNewOrder_of_accepts accepts]
    change (book.storeOrder msg.orderId msg.info).orders.lookup id = _
    rw [orders_storeOrder, lookup_insert_eq]
    by_cases same : msg.orderId = id
    · subst same
      rw [if_pos rfl, accepts.2.1, if_pos ⟨rfl, accepts.2.2⟩, Option.none_or]
    · rw [if_neg fun equal => same equal.symm, if_neg fun both => same both.1, Option.or_none]
  · rw [handleNewOrder_of_not_accepts accepts]
    cases found : book.orders.lookup id with
    | some info => rfl
    | none =>
        rw [Option.none_or, if_neg]
        rintro ⟨rfl, storable⟩
        exact accepts ⟨typed, found, storable⟩

theorem lookup_foldl_newOrders {orders : List NewOrder}
    (typed : ∀ msg ∈ orders, msg.header.msgType = .NEW_ORDER) (book : OrderBook) (id : UInt64) :
    ((orders.map BookMsg.newOrder).foldl next book).orders.lookup id =
      (book.orders.lookup id).or (firstStorable orders id) := by
  induction orders generalizing book with
  | nil => exact (Option.or_none).symm
  | cons msg orders inductionHypothesis =>
      rw [List.map_cons, List.foldl_cons,
        inductionHypothesis fun later member => typed later (List.mem_cons_of_mem _ member),
        lookup_next_newOrder (typed msg List.mem_cons_self), Option.or_assoc, firstStorable,
        firstStorable, List.find?_cons]
      by_cases stores : msg.orderId = id ∧ msg.info.Storable
      · simp [stores]
      · simp [stores]

/-- The level maps are the sums of the resting orders as words, with a level exactly where orders
rest. -/
def Tallied (book : OrderBook) : Prop :=
  ∀ side price,
    (book.RestsAt side price → (book.levels side).lookup price =
      some (UInt32.ofNat (book.restingQuantity side price))) ∧
    (¬ book.RestsAt side price → (book.levels side).lookup price = none)

theorem tallied_empty (symbol : UInt32) : (empty symbol).Tallied := by
  intro side price
  constructor
  · rintro ⟨id, info, found, -⟩
    cases found
  · intro _
    cases side <;> rfl

/-- Nothing is summed where nothing rests. -/
theorem restingQuantity_of_not_restsAt {book : OrderBook} {side : BookSide} {price : Int32}
    (nothing : ¬ book.RestsAt side price) : book.restingQuantity side price = 0 := by
  by_contra something
  obtain ⟨id, info, found, weighs⟩ := exists_of_sumBy_ne_zero something
  apply nothing
  rw [OrderInfo.weightAt] at weighs
  split at weighs
  · rename_i here
    exact ⟨id, info, found, here⟩
  · exact absurd rfl weighs

/-- Another order at a fresh id keeps the tally. -/
theorem Tallied.store {book : OrderBook} (tallied : book.Tallied) {id : UInt64}
    (absent : book.orders.lookup id = none) (info : OrderInfo) :
    (book.storeOrder id info).Tallied := by
  intro side price
  have rests : (book.storeOrder id info).RestsAt side price ↔
      book.RestsAt side price ∨ (info.side.bookSide = side ∧ info.price = price) := by
    rw [RestsAt, orders_storeOrder]
    constructor
    · rintro ⟨other, stored, found, here⟩
      rw [lookup_insert_eq] at found
      split at found
      · cases found
        exact Or.inr here
      · exact Or.inl ⟨other, stored, found, here⟩
    · rintro (⟨other, stored, found, here⟩ | here)
      · refine ⟨other, stored, ?_, here⟩
        rw [lookup_insert_eq, if_neg]
        · exact found
        · rintro rfl
          rw [absent] at found
          cases found
      · exact ⟨id, info, by rw [lookup_insert_eq, if_pos rfl], here⟩
  have sum : (book.storeOrder id info).restingQuantity side price =
      info.weightAt side price + book.restingQuantity side price := by
    rw [restingQuantity, orders_storeOrder, sumBy_insert_of_lookup_none _ _ absent, restingQuantity]
  by_cases here : info.side.bookSide = side ∧ info.price = price
  · have before : ((book.levels side).lookup price).getD 0 =
        UInt32.ofNat (book.restingQuantity side price) := by
      by_cases already : book.RestsAt side price
      · rw [(tallied side price).1 already, Option.getD_some]
      · rw [(tallied side price).2 already, restingQuantity_of_not_restsAt already]
        rfl
    refine ⟨fun _ => ?_, fun nothing => absurd (rests.mpr (Or.inr here)) nothing⟩
    rw [lookup_levels_storeOrder, if_pos here, before, sum, OrderInfo.weightAt, if_pos here,
      UInt32.ofNat_add, UInt32.ofNat_toNat, UInt32.add_comm]
  · rw [rests, lookup_levels_storeOrder, if_neg here, sum, OrderInfo.weightAt, if_neg here,
      Nat.zero_add, or_iff_left here]
    exact tallied side price

theorem Tallied.newOrders {orders : List NewOrder} {book : OrderBook} (tallied : book.Tallied) :
    ((orders.map BookMsg.newOrder).foldl next book).Tallied := by
  induction orders generalizing book with
  | nil => exact tallied
  | cons msg orders inductionHypothesis =>
      apply inductionHypothesis
      rw [next, handle]
      by_cases accepts : book.Accepts msg
      · rw [handleNewOrder_of_accepts accepts]
        have stored := tallied.store accepts.2.1 msg.info
        intro side price
        exact stored side price
      · rw [handleNewOrder_of_not_accepts accepts]
        exact tallied

/-- The orders of a tallied book determine its levels. -/
theorem Tallied.levels_eq {first second : OrderBook} (tallied : first.Tallied)
    (talliedToo : second.Tallied) (orders : first.orders = second.orders) (side : BookSide) :
    first.levels side = second.levels side := by
  apply Finmap.ext_lookup
  intro price
  have rests : first.RestsAt side price ↔ second.RestsAt side price := by
    rw [RestsAt, RestsAt, orders]
  have sum : first.restingQuantity side price = second.restingQuantity side price := by
    rw [restingQuantity, restingQuantity, orders]
  by_cases here : first.RestsAt side price
  · rw [(tallied side price).1 here, (talliedToo side price).1 (rests.mp here), sum]
  · rw [(tallied side price).2 here, (talliedToo side price).2 (rests.not.mp here)]

/-- A book with the same orders as a tallied one has the same levels exactly if it is tallied. -/
theorem Tallied.sameBook_iff {first second : OrderBook} (tallied : first.Tallied) :
    first.SameBook second ↔ first.orders = second.orders ∧ second.Tallied := by
  constructor
  · intro same
    refine ⟨same.orders, ?_⟩
    intro side price
    have levels : second.levels side = first.levels side := by
      cases side with
      | bid => exact same.bids.symm
      | ask => exact same.asks.symm
    rw [RestsAt, restingQuantity, levels, ← same.orders]
    exact tallied side price
  · rintro ⟨orders, talliedToo⟩
    exact ⟨orders, tallied.levels_eq talliedToo orders .bid,
      tallied.levels_eq talliedToo orders .ask⟩

end OrderBook

namespace Listener

/-! ### The records a packet is read for -/

/-- The records that the two nested loops get through while `left` more orders are expected; they
stop at the first record that fits neither loop. -/
def taken : Option Nat → List SnapshotRecord → List SnapshotRecord
  | some _, .info msg :: rest =>
      .info msg :: taken (some (msg.bidCount + msg.askCount).toNat) rest
  | some (left + 1), .order msg :: rest =>
      if msg.header.msgType = .NEW_ORDER then .order msg :: taken (some left) rest else []
  | some 0, .order _ :: _ => []
  | some _, .other :: _ => []
  | some _, [] => []
  | none, _ => []

theorem foldl_readRecord_none (listener : Listener) (records : List SnapshotRecord) :
    records.foldl readRecord (listener, none) = (listener, none) := by
  induction records with
  | nil => rfl
  | cons record records inductionHypothesis => exact inductionHypothesis

theorem foldl_readRecord_eq (left : Option Nat) (listener : Listener)
    (records : List SnapshotRecord) :
    (records.foldl readRecord (listener, left)).1 = (taken left records).foldl take listener := by
  induction left, records using taken.induct generalizing listener with
  | case1 left msg rest inductionHypothesis => exact inductionHypothesis (listener.openBlock msg)
  | case2 left msg rest typed inductionHypothesis =>
      have step : readRecord (listener, some (left + 1)) (.order msg) =
          (listener.dispatchNewOrder msg, some left) := if_pos typed
      rw [List.foldl_cons, step, taken, if_pos typed]
      exact inductionHypothesis (listener.dispatchNewOrder msg)
  | case3 left msg rest untyped =>
      have step : readRecord (listener, some (left + 1)) (.order msg) = (listener, none) :=
        if_neg untyped
      rw [List.foldl_cons, step, foldl_readRecord_none, taken, if_neg untyped]
      rfl
  | case4 msg rest =>
      have step : readRecord (listener, some 0) (.order msg) = (listener, none) := rfl
      rw [List.foldl_cons, step, foldl_readRecord_none]
      rfl
  | case5 left rest =>
      have step : readRecord (listener, some left) .other = (listener, none) := rfl
      rw [List.foldl_cons, step, foldl_readRecord_none]
      rfl
  | case6 left => rfl
  | case7 records => rw [foldl_readRecord_none, taken, List.foldl_nil]

theorem readSnapshot_eq (listener : Listener) (records : List SnapshotRecord) :
    listener.readSnapshot records = (taken (some 0) records).foldl take listener :=
  foldl_readRecord_eq (some 0) listener records

/-- The loops get through NEW_ORDERs of that type only. -/
theorem typed_of_mem_taken {left : Option Nat} {records : List SnapshotRecord} {msg : NewOrder}
    (member : .order msg ∈ taken left records) : msg.header.msgType = .NEW_ORDER := by
  induction left, records using taken.induct with
  | case1 left info rest inductionHypothesis =>
      rcases List.mem_cons.mp member with impossible | later
      · cases impossible
      · exact inductionHypothesis later
  | case2 left first rest typed inductionHypothesis =>
      rw [taken, if_pos typed] at member
      rcases List.mem_cons.mp member with same | later
      · cases same
        exact typed
      · exact inductionHypothesis later
  | case3 left first rest untyped =>
      rw [taken, if_neg untyped] at member
      exact absurd member List.not_mem_nil
  | case4 first rest => exact absurd member List.not_mem_nil
  | case5 left rest =>
      rw [taken] at member
      exact absurd member List.not_mem_nil
  | case6 left =>
      rw [taken] at member
      exact absurd member List.not_mem_nil
  | case7 records =>
      rw [taken] at member
      exact absurd member List.not_mem_nil

/-! ### Books and routes after the records -/

/-- Until the symbol's next block, its book takes the symbol's orders. -/
theorem book_foldl_take {symbol : UInt32} {records : List SnapshotRecord}
    (noBlock : ∀ info, .info info ∈ records → info.symbol ≠ symbol) (listener : Listener) :
    (records.foldl take listener).book symbol =
      ((ordersFor symbol records).map BookMsg.newOrder).foldl OrderBook.next
        (listener.book symbol) := by
  induction records generalizing listener with
  | nil => rfl
  | cons record records inductionHypothesis =>
      rw [List.foldl_cons,
        inductionHypothesis fun info member => noBlock info (List.mem_cons_of_mem _ member)]
      cases record with
      | info msg =>
          have foreign := noBlock msg List.mem_cons_self
          have step : (listener.take (.info msg)).book symbol = listener.book symbol :=
            (book_openBlock listener msg symbol).trans (if_neg fun same => foreign same.symm)
          rw [step]
          rfl
      | order msg =>
          have step : (listener.take (.order msg)).book symbol =
              if some msg.symbol = some symbol then (listener.book symbol).next (.newOrder msg)
              else listener.book symbol := book_dispatch listener (.newOrder msg) symbol
          rw [step]
          by_cases own : msg.symbol = symbol
          · simp [ordersFor, own]
          · simp [ordersFor, own]
      | other => rfl

/-- The route of one id after a record. -/
def routeTake (id : UInt64) (route : Option UInt32) : SnapshotRecord → Option UInt32
  | .info msg => if route = some msg.symbol then none else route
  | .order msg => if msg.orderId = id then some msg.symbol else route
  | .other => route

/-- The route that the records by themselves give an id: the symbol they name for it last, unless
a block of that symbol follows. -/
def leftRoute (id : UInt64) (records : List SnapshotRecord) : Option UInt32 :=
  records.foldl (routeTake id) none

theorem lookup_take (listener : Listener) (record : SnapshotRecord) (id : UInt64) :
    (listener.take record).orderToSymbol.lookup id =
      routeTake id (listener.orderToSymbol.lookup id) record := by
  cases record with
  | info msg =>
      change (listener.orderToSymbol.filter _).lookup id = _
      rw [lookup_filter, routeTake]
      cases routed : listener.orderToSymbol.lookup id with
      | none => rfl
      | some symbol =>
          by_cases own : symbol = msg.symbol
          · simp [own]
          · simp [own]
  | order msg =>
      change (listener.orderToSymbol.insert msg.orderId msg.symbol).lookup id = _
      rw [lookup_insert_eq, routeTake]
      by_cases same : msg.orderId = id
      · rw [if_pos same, if_pos same.symm]
      · rw [if_neg same, if_neg fun equal => same equal.symm]
  | other => rfl

theorem lookup_foldl_take (listener : Listener) (records : List SnapshotRecord) (id : UInt64) :
    (records.foldl take listener).orderToSymbol.lookup id =
      records.foldl (routeTake id) (listener.orderToSymbol.lookup id) := by
  induction records generalizing listener with
  | nil => rfl
  | cons record records inductionHypothesis =>
      rw [List.foldl_cons, inductionHypothesis, lookup_take, List.foldl_cons]

/-- Records that name an id decide its route. -/
theorem foldl_routeTake_of_named {id : UInt64} {records : List SnapshotRecord} {msg : NewOrder}
    (named : .order msg ∈ records) (same : msg.orderId = id) (route : Option UInt32) :
    records.foldl (routeTake id) route = leftRoute id records := by
  obtain ⟨before, after, rfl⟩ := List.append_of_mem named
  rw [leftRoute, List.foldl_append, List.foldl_append, List.foldl_cons, List.foldl_cons, routeTake,
    routeTake, if_pos same, if_pos same]

/-! ### What an event handles -/

/-- What a packet that is not buffered makes the listener handle: the records the snapshot loops
get through, or one message. -/
def handledOf : Packet → List SnapshotRecord × List BookMsg
  | .snapshot records => (taken (some 0) records, [])
  | .book msg => ([], [msg])
  | .heartbeat | .otherMessage | .foreign => ([], [])

/-- What an event makes the listener handle.  The quiet period that ends the catch-up drains the
buffer. -/
def handled (listener : Listener) (event : ListenerEvent) : List SnapshotRecord × List BookMsg :=
  if ¬ listener.running then ([], [])
  else
    match event with
    | .live packet => if listener.caughtUp then handledOf packet else ([], [])
    | .replay packet => handledOf packet
    | .timeout =>
        if (¬ listener.caughtUp ∧ listener.receivedSnapshot) ∧ listener.noReplayCount + 1 > 100 then
          ([], listener.liveBuffer.filterMap Packet.bookMsg)
        else ([], [])

/-- The slots and routes after what is handled. -/
def afterHandling (listener : Listener) (items : List SnapshotRecord × List BookMsg) : Listener :=
  items.2.foldl dispatch (items.1.foldl take listener)

theorem process_eq_afterHandling (listener : Listener) (packet : Packet) :
    (listener.process packet).manager = (listener.afterHandling (handledOf packet)).manager ∧
      (listener.process packet).orderToSymbol =
        (listener.afterHandling (handledOf packet)).orderToSymbol := by
  cases packet with
  | snapshot records =>
      have reads := readSnapshot_eq listener records
      exact ⟨congrArg manager reads, congrArg orderToSymbol reads⟩
  | book msg => exact ⟨rfl, rfl⟩
  | heartbeat => exact ⟨rfl, rfl⟩
  | otherMessage => exact ⟨rfl, rfl⟩
  | foreign => exact ⟨rfl, rfl⟩

/-- An event does to the slots and the routes what it makes the listener handle. -/
theorem next_eq_afterHandling (listener : Listener) (event : ListenerEvent) :
    (listener.next event).manager = (listener.afterHandling (listener.handled event)).manager ∧
      (listener.next event).orderToSymbol =
        (listener.afterHandling (listener.handled event)).orderToSymbol := by
  rw [next.eq_def, handled.eq_def]
  split
  · exact ⟨rfl, rfl⟩
  cases event with
  | live packet =>
      dsimp only
      split
      · exact process_eq_afterHandling listener packet
      · rw [bufferLive]
        split
        · exact ⟨rfl, rfl⟩
        · exact ⟨rfl, rfl⟩
  | replay packet => exact process_eq_afterHandling listener packet
  | timeout =>
      dsimp only
      rw [quiet]
      by_cases catching : ¬ listener.caughtUp ∧ listener.receivedSnapshot
      · rw [if_pos catching]
        dsimp only
        by_cases quietLongEnough : listener.noReplayCount + 1 > 100
        · have drained := foldl_dispatch_noReplayCount listener (listener.noReplayCount + 1)
            (listener.liveBuffer.filterMap Packet.bookMsg)
          rw [if_pos quietLongEnough, if_pos ⟨catching, quietLongEnough⟩, drain, drained]
          exact ⟨rfl, rfl⟩
        · rw [if_neg quietLongEnough, if_neg fun both => quietLongEnough both.2]
          exact ⟨rfl, rfl⟩
      · rw [if_neg catching, if_neg fun both => catching both.1]
        exact ⟨rfl, rfl⟩

/-! ### Caches -/

/-- What every book message and every reset keeps, every event keeps. -/
theorem manager_next {keep : SymbolManager → Prop}
    (handles : ∀ manager id msg, keep manager → keep (manager.onBookMsg id msg))
    (resets : ∀ manager id, keep manager → keep (manager.resetBook id)) {listener : Listener}
    (kept : keep listener.manager) (event : ListenerEvent) :
    keep (listener.next event).manager := by
  have dispatched : ∀ (before : Listener) (msg : BookMsg), keep before.manager →
      keep (before.dispatch msg).manager := by
    intro before msg kept
    rw [dispatch_eq]
    cases before.target msg with
    | none => exact kept
    | some symbol => exact handles _ _ _ kept
  have taken : ∀ (before : Listener) (record : SnapshotRecord), keep before.manager →
      keep (before.take record).manager := by
    intro before record kept
    cases record with
    | info msg => exact resets _ _ kept
    | order msg => exact dispatched before (.newOrder msg) kept
    | other => exact kept
  rw [(listener.next_eq_afterHandling event).1]
  have read : keep ((listener.handled event).1.foldl take listener).manager :=
    @invariant_foldl_always _ _ take (fun state => keep state.manager) taken listener kept _
  exact @invariant_foldl_always _ _ dispatch (fun state => keep state.manager) dispatched _ read _

/-- Each symbol's cached top is that of its book. -/
def Flushed (manager : SymbolManager) : Prop :=
  ∀ symbol, (manager.slots symbol).flushTopOfBook = manager.slots symbol

/-- A slot that is flushed keeps the caches flushed. -/
theorem Flushed.setSlot {manager : SymbolManager} (flushed : Flushed manager) (id : UInt32)
    {slot : SymbolSlot} (flushedSlot : slot.flushTopOfBook = slot) :
    Flushed (manager.setSlot id slot) := by
  intro symbol
  by_cases own : symbol = id
  · simpa [SymbolManager.setSlot, own] using flushedSlot
  · simpa [SymbolManager.setSlot, own] using flushed symbol

theorem Flushed.next {listener : Listener} (flushed : Flushed listener.manager)
    (event : ListenerEvent) : Flushed (listener.next event).manager := by
  apply manager_next
  · intro manager id msg flushed
    exact flushed.setSlot id rfl
  · intro manager id flushed
    exact flushed.setSlot id rfl
  · exact flushed

theorem flushed_run (events : List ListenerEvent) :
    Flushed (events.foldl Listener.next (start .empty)).manager := by
  induction events using List.reverseRecOn with
  | nil => exact fun symbol => rfl
  | append_singleton events event inductionHypothesis =>
      rw [List.foldl_append]
      exact inductionHypothesis.next event

/-! ### An old packet -/

/-- The symbol's orders, levels and cached top, and the routes of the orders that rested in its
book, are as before. -/
structure Unchanged (before after : Listener) (symbol : UInt32) : Prop where
  book : (after.book symbol).SameBook (before.book symbol)
  bid : (after.manager.slots symbol).bestBidPrice = (before.manager.slots symbol).bestBidPrice ∧
    (after.manager.slots symbol).bestBidQty = (before.manager.slots symbol).bestBidQty
  ask : (after.manager.slots symbol).bestAskPrice = (before.manager.slots symbol).bestAskPrice ∧
    (after.manager.slots symbol).bestAskQty = (before.manager.slots symbol).bestAskQty
  routes : ∀ id info, (before.book symbol).orders.lookup id = some info →
    after.orderToSymbol.lookup id = before.orderToSymbol.lookup id

/-- The records after the head of a symbol's block tell what is known of the symbol already: they
list its resting orders and no more, its levels are their sums, and they name last the symbol that
each is routed to. -/
structure Reproduces (listener : Listener) (symbol : UInt32) (records : List SnapshotRecord) :
    Prop where
  orders : ∀ id, OrderBook.firstStorable (ordersFor symbol records) id =
    (listener.book symbol).orders.lookup id
  levels : (listener.book symbol).Tallied
  routes : ∀ id info, (listener.book symbol).orders.lookup id = some info →
    leftRoute id records = listener.orderToSymbol.lookup id

theorem mem_of_mem_ordersFor {symbol : UInt32} {records : List SnapshotRecord} {msg : NewOrder}
    (member : msg ∈ ordersFor symbol records) : .order msg ∈ records := by
  obtain ⟨record, within, kept⟩ := List.mem_filterMap.mp member
  cases record with
  | order other =>
      dsimp only at kept
      split at kept
      · cases kept
        exact within
      · cases kept
  | info block => cases kept
  | other => cases kept

/-- A block lists an order of the book it rebuilds. -/
theorem named_of_firstStorable {symbol : UInt32} {records : List SnapshotRecord} {id : UInt64}
    {info : OrderInfo}
    (listed : OrderBook.firstStorable (ordersFor symbol records) id = some info) :
    ∃ msg, .order msg ∈ records ∧ msg.orderId = id := by
  obtain ⟨msg, first, -⟩ := Option.map_eq_some_iff.mp listed
  have same : msg.orderId = id ∧ msg.info.Storable :=
    of_decide_eq_true (List.find?_some first :)
  exact ⟨msg, mem_of_mem_ordersFor (List.mem_of_find?_eq_some first), same.1⟩

section LastBlock

variable {before : Listener} {records earlier tail : List SnapshotRecord} {info : SnapshotInfo}
  (read : taken (some 0) records = earlier ++ .info info :: tail)

include read

/-- The head of a symbol's last block empties its book, so only the records after it count. -/
theorem book_readSnapshot (lastBlock : ∀ later, .info later ∈ tail → later.symbol ≠ info.symbol) :
    (before.readSnapshot records).book info.symbol =
      ((ordersFor info.symbol tail).map BookMsg.newOrder).foldl OrderBook.next
        (.empty info.symbol) := by
  rw [readSnapshot_eq, read, List.foldl_append, List.foldl_cons, book_foldl_take lastBlock]
  have opened : ((earlier.foldl take before).take (.info info)).book info.symbol =
      .empty info.symbol :=
    (book_openBlock (earlier.foldl take before) info info.symbol).trans (if_pos rfl)
  rw [opened]

theorem typed_of_mem_ordersFor {msg : NewOrder} (member : msg ∈ ordersFor info.symbol tail) :
    msg.header.msgType = .NEW_ORDER := by
  apply @typed_of_mem_taken (some 0) records
  rw [read]
  exact List.mem_append_right _ (List.mem_cons_of_mem _ (mem_of_mem_ordersFor member))

theorem lookup_orders_readSnapshot
    (lastBlock : ∀ later, .info later ∈ tail → later.symbol ≠ info.symbol) (id : UInt64) :
    ((before.readSnapshot records).book info.symbol).orders.lookup id =
      OrderBook.firstStorable (ordersFor info.symbol tail) id := by
  rw [book_readSnapshot read lastBlock,
    OrderBook.lookup_foldl_newOrders fun msg member => typed_of_mem_ordersFor read member]
  exact Option.none_or

/-- An order that the block lists is routed as the records leave it. -/
theorem lookup_route_readSnapshot {id : UInt64} {found : OrderInfo}
    (listed : OrderBook.firstStorable (ordersFor info.symbol tail) id = some found) :
    (before.readSnapshot records).orderToSymbol.lookup id = leftRoute id tail := by
  obtain ⟨msg, member, same⟩ := named_of_firstStorable listed
  rw [readSnapshot_eq, read, List.foldl_append, List.foldl_cons, lookup_foldl_take]
  exact foldl_routeTake_of_named member same _

end LastBlock

/-- Equal level maps have equal tops. -/
theorem flushTopOfBook_eq {first second : SymbolSlot} (same : first.book.SameBook second.book) :
    (first.flushTopOfBook.bestBidPrice = second.flushTopOfBook.bestBidPrice ∧
        first.flushTopOfBook.bestBidQty = second.flushTopOfBook.bestBidQty) ∧
      first.flushTopOfBook.bestAskPrice = second.flushTopOfBook.bestAskPrice ∧
        first.flushTopOfBook.bestAskQty = second.flushTopOfBook.bestAskQty := by
  obtain ⟨bidPrice, bidQty, askPrice, askQty⟩ := same.tops
  exact ⟨⟨bidPrice, bidQty⟩, askPrice, askQty⟩

/-- In every state of every run, whatever sequence number the block carries: a packet that is read
from the replay channel leaves a symbol unchanged exactly if the last block of that symbol in it
tells what is known of the symbol already. -/
theorem unchanged_iff_reproduces (events : List ListenerEvent)
    (running : (events.foldl next (start .empty)).running = true)
    {records earlier tail : List SnapshotRecord} {info : SnapshotInfo}
    (read : taken (some 0) records = earlier ++ .info info :: tail)
    (lastBlock : ∀ later, .info later ∈ tail → later.symbol ≠ info.symbol) :
    Unchanged (events.foldl next (start .empty))
        ((events.foldl next (start .empty)).next (.replay (.snapshot records))) info.symbol ↔
      Reproduces (events.foldl next (start .empty)) info.symbol tail := by
  have flushed := flushed_run events
  generalize events.foldl next (start .empty) = before at running flushed ⊢
  have flushedAfter := flushed.next (.replay (.snapshot records))
  have step : before.next (.replay (.snapshot records)) = before.readSnapshot records := by
    rw [next, if_neg (by simp [running])]
    rfl
  rw [step] at flushedAfter ⊢
  have tallied : ((before.readSnapshot records).book info.symbol).Tallied := by
    rw [book_readSnapshot read lastBlock]
    exact (OrderBook.tallied_empty info.symbol).newOrders
  have lists := @lookup_orders_readSnapshot before _ _ _ _ read lastBlock
  constructor
  · intro unchanged
    obtain ⟨orders, talliedBefore⟩ := tallied.sameBook_iff.mp unchanged.book
    have listed : ∀ id, OrderBook.firstStorable (ordersFor info.symbol tail) id =
        (before.book info.symbol).orders.lookup id := by
      intro id
      rw [← lists id, orders]
    refine ⟨listed, talliedBefore, ?_⟩
    intro id found rests
    rw [← unchanged.routes id found rests]
    exact (lookup_route_readSnapshot read ((listed id).trans rests)).symm
  · intro reproduces
    have same : ((before.readSnapshot records).book info.symbol).SameBook
        (before.book info.symbol) := by
      apply tallied.sameBook_iff.mpr
      refine ⟨?_, reproduces.levels⟩
      apply Finmap.ext_lookup
      intro id
      rw [lists id, reproduces.orders id]
    have top := flushTopOfBook_eq same
    rw [flushed info.symbol, flushedAfter info.symbol] at top
    refine ⟨same, top.1, top.2, ?_⟩
    intro id found rests
    rw [lookup_route_readSnapshot read ((reproduces.orders id).trans rests)]
    exact reproduces.routes id found rests

/-! ### A snapshot that comes again -/

/-- A packet for symbol 3 as of message 4: a BUY of 5 at 100 rests under id 7. -/
def asOfFour : List SnapshotRecord :=
  [.info ⟨3, 1, 0, 4⟩, .order ⟨⟨4, .NEW_ORDER⟩, 7, 3, .BUY, 5, 100⟩]

/-- The packet, a replay channel that goes quiet, and live message 5: a SELL of 2 at 103 under
id 8. -/
def caughtUpThenLive : List ListenerEvent :=
  .replay (.snapshot asOfFour) :: List.replicate 101 .timeout ++
    [.live (.book (.newOrder ⟨⟨5, .NEW_ORDER⟩, 8, 3, .SELL, 2, 103⟩))]

theorem unchanged_iff_reproduces_caughtUpThenLive :
    (caughtUpThenLive.foldl next (start .empty)).running = true ∧
      (Unchanged (caughtUpThenLive.foldl next (start .empty))
          ((caughtUpThenLive.foldl next (start .empty)).next (.replay (.snapshot asOfFour))) 3 ↔
        Reproduces (caughtUpThenLive.foldl next (start .empty)) 3
          [.order ⟨⟨4, .NEW_ORDER⟩, 7, 3, .BUY, 5, 100⟩]) := by
  have running : (caughtUpThenLive.foldl next (start .empty)).running = true := by decide +kernel
  have read : taken (some 0) asOfFour =
      [] ++ .info ⟨3, 1, 0, 4⟩ :: [.order ⟨⟨4, .NEW_ORDER⟩, 7, 3, .BUY, 5, 100⟩] := by decide
  refine ⟨running, unchanged_iff_reproduces caughtUpThenLive running read ?_⟩
  intro later member
  cases List.mem_singleton.mp member

/-- After the switch to the live feed, with message 5 applied to the symbol, the packet as of
message 4 comes again: the order of message 5 is gone from the book, from the cached top and from
the routes. -/
theorem asOfFour_undoes_live :
    (caughtUpThenLive.foldl next (start .empty)).caughtUp = true ∧
      ((caughtUpThenLive.foldl next (start .empty)).book 3).lastSeqNum = 5 ∧
      ((caughtUpThenLive.foldl next (start .empty)).book 3).orders.lookup 8 =
        some ⟨103, 2, .SELL, 3⟩ ∧
      ((caughtUpThenLive.foldl next (start .empty)).manager.slots 3).bestAskPrice = 103 ∧
      (((caughtUpThenLive.foldl next (start .empty)).next
        (.replay (.snapshot asOfFour))).book 3).orders.lookup 8 = none ∧
      (((caughtUpThenLive.foldl next (start .empty)).next
        (.replay (.snapshot asOfFour))).manager.slots 3).bestAskPrice = 0 ∧
      ((caughtUpThenLive.foldl next (start .empty)).next
        (.replay (.snapshot asOfFour))).orderToSymbol.lookup 8 = none ∧
      ¬ Unchanged (caughtUpThenLive.foldl next (start .empty))
          ((caughtUpThenLive.foldl next (start .empty)).next (.replay (.snapshot asOfFour))) 3 := by
  have rested : ((caughtUpThenLive.foldl next (start .empty)).book 3).orders.lookup 8 =
      some ⟨103, 2, .SELL, 3⟩ := by decide +kernel
  have gone : (((caughtUpThenLive.foldl next (start .empty)).next
      (.replay (.snapshot asOfFour))).book 3).orders.lookup 8 = none := by decide +kernel
  refine ⟨by decide +kernel, by decide +kernel, rested, by decide +kernel, gone, by decide +kernel,
    by decide +kernel, ?_⟩
  intro unchanged
  rw [unchanged.book.orders, rested] at gone
  cases gone

end Listener

end HftAlgorithms
