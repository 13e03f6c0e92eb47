/-
Module: HftAlgorithms.Proofs.SnapshotPackets
Purpose: What a well-formed snapshot packet makes of the listener, from the bytes
  of the packet to the books and routes, whatever the listener knew before.
Trusted boundary: none
Main exports: RawPacket.taken_of_takes, Listener.readPacket_eq_readSnapshot,
  WellFormed, Listener.TakenOver, Listener.takenOver_foldl_take,
  Listener.readPacket_of_wellFormed
-/
import HftAlgorithms.Proofs.SlotAccesses
import HftAlgorithms.Proofs.SnapshotEncoding

namespace HftAlgorithms

open FiniteMap LittleEndian Walk

/-! ### Bytes and records -/

/-- The records that the loops take from the bytes are such as the loops over records get
through. -/
theorem RawPacket.taken_of_takes {packet : RawPacket} {cursor last : Cursor}
    {records : List SnapshotRecord} (takes : Takes packet.nextRecord cursor records last) :
    Listener.taken (some cursor.left) records = records := by
  induction takes with
  | nothing cursor => rfl
  | @item cursor next last record records took _ inductionHypothesis =>
      rcases takes_or_opens took with order | opens
      · rw [nextRecord_of_takesOrder order] at took
        obtain ⟨offset, left⟩ := cursor
        obtain ⟨positive, -, -, isOrder⟩ := order
        cases left with
        | zero => exact absurd positive (Nat.lt_irrefl 0)
        | succ left =>
            cases took
            have typed : (readNewOrder packet.buf offset).header.msgType = .NEW_ORDER := isOrder
            rw [Listener.taken, if_pos typed]
            exact congrArg _ inductionHypothesis
      · rw [nextRecord_of_opensBlock opens] at took
        cases took
        rw [Listener.taken]
        exact congrArg _ inductionHypothesis

namespace Listener

/-- Loops that end over the bytes do what the loops over the records they took do. -/
theorem readPacket_eq_readSnapshot {packet : RawPacket} {listener : Listener}
    {records : List SnapshotRecord} {last : Cursor} {budget : Nat}
    (takes : Takes packet.nextRecord Cursor.start records last)
    (ended : packet.nextRecord last = none) (enough : records.length ≤ budget) :
    readPacket packet budget listener Cursor.start = some (listener.readSnapshot records) := by
  have taken : taken (some 0) records = records := RawPacket.taken_of_takes takes
  rw [readPacket_eq, takes.run ended enough, readSnapshot_eq, taken]
  rfl

end Listener

/-! ### Well-formed packets -/

/-- The ids of a block's orders. -/
def SnapshotBlock.ids (block : SnapshotBlock) : List UInt64 := block.orders.map NewOrder.orderId

/-- Blocks of different symbols of the table, each with as many orders as it announces, orders that
a book can store, of the block's symbol, and no id twice in the packet. -/
structure WellFormed (blocks : List SnapshotBlock) : Prop where
  counted : ∀ block ∈ blocks,
    block.orders.length = (block.info.bidCount + block.info.askCount).toNat
  typed : ∀ block ∈ blocks, ∀ msg ∈ block.orders, msg.header.msgType = .NEW_ORDER
  own : ∀ block ∈ blocks, ∀ msg ∈ block.orders, msg.symbol = block.info.symbol
  storable : ∀ block ∈ blocks, ∀ msg ∈ block.orders, msg.info.Storable
  inTable : ∀ block ∈ blocks, block.info.symbol ∈ symbolIds
  symbols : (blocks.map fun block => block.info.symbol).Nodup
  ids : (blocks.flatMap SnapshotBlock.ids).Nodup

theorem WellFormed.announced {blocks : List SnapshotBlock} (wellFormed : WellFormed blocks) :
    ∀ block ∈ blocks, block.Announced := fun block member =>
  ⟨wellFormed.counted block member, wellFormed.typed block member,
    fun msg within => (wellFormed.storable block member msg within).1⟩

/-- Among storable orders with different ids, the one under an id is listed. -/
theorem OrderBook.firstStorable_eq_some_iff {orders : List NewOrder}
    (storable : ∀ msg ∈ orders, msg.info.Storable)
    (distinct : (orders.map NewOrder.orderId).Nodup) {id : UInt64} {info : OrderInfo} :
    firstStorable orders id = some info ↔
      ∃ msg ∈ orders, msg.orderId = id ∧ msg.info = info := by
  rw [firstStorable, Option.map_eq_some_iff]
  constructor
  · rintro ⟨msg, found, rfl⟩
    have here : msg.orderId = id ∧ msg.info.Storable := of_decide_eq_true (List.find?_some found :)
    exact ⟨msg, List.mem_of_find?_eq_some found, here.1, rfl⟩
  · rintro ⟨msg, member, rfl, rfl⟩
    have some_found : (orders.find? fun other =>
        other.orderId = msg.orderId ∧ other.info.Storable).isSome := by
      rw [List.find?_isSome]
      exact ⟨msg, member, decide_eq_true ⟨rfl, storable msg member⟩⟩
    obtain ⟨other, found⟩ := Option.isSome_iff_exists.mp some_found
    have here : other.orderId = msg.orderId ∧ other.info.Storable :=
      of_decide_eq_true (List.find?_some found :)
    have same := List.inj_on_of_nodup_map distinct (List.mem_of_find?_eq_some found) member here.1
    exact ⟨other, found, congrArg NewOrder.info same⟩

/-! ### Routes, block by block -/

/-- The route of an id after a block: the block's symbol if the block lists the id, and otherwise
what it was, unless that is the block's symbol. -/
def routeBlock (id : UInt64) (route : Option UInt32) (block : SnapshotBlock) : Option UInt32 :=
  if id ∈ block.ids then some block.info.symbol
  else if route = some block.info.symbol then none else route

theorem foldl_routeTake_orders {orders : List NewOrder} {symbol : UInt32}
    (own : ∀ msg ∈ orders, msg.symbol = symbol) (id : UInt64) (route : Option UInt32) :
    (orders.map SnapshotRecord.order).foldl (Listener.routeTake id) route =
      if id ∈ orders.map NewOrder.orderId then some symbol else route := by
  induction orders generalizing route with
  | nil => rfl
  | cons msg orders inductionHypothesis =>
      rw [List.map_cons, List.foldl_cons,
        inductionHypothesis fun later member => own later (List.mem_cons_of_mem _ member),
        Listener.routeTake, own msg List.mem_cons_self, List.map_cons]
      by_cases later : id ∈ orders.map NewOrder.orderId
      · rw [if_pos later, if_pos (List.mem_cons_of_mem _ later)]
      · rw [if_neg later]
        by_cases here : msg.orderId = id
        · rw [if_pos here, if_pos (here ▸ List.mem_cons_self)]
        · rw [if_neg here, if_neg]
          intro member
          exact (List.mem_cons.mp member).elim (fun same => here same.symm) later

theorem foldl_routeTake_block {block : SnapshotBlock}
    (own : ∀ msg ∈ block.orders, msg.symbol = block.info.symbol) (id : UInt64)
    (route : Option UInt32) :
    block.records.foldl (Listener.routeTake id) route = routeBlock id route block := by
  rw [SnapshotBlock.records, List.foldl_cons, foldl_routeTake_orders own]
  rfl

theorem foldl_routeTake_blocks {blocks : List SnapshotBlock}
    (own : ∀ block ∈ blocks, ∀ msg ∈ block.orders, msg.symbol = block.info.symbol) (id : UInt64)
    (route : Option UInt32) :
    (blocks.flatMap SnapshotBlock.records).foldl (Listener.routeTake id) route =
      blocks.foldl (routeBlock id) route := by
  induction blocks generalizing route with
  | nil => rfl
  | cons block blocks inductionHypothesis =>
      have here := own block List.mem_cons_self
      rw [List.flatMap_cons, List.foldl_append, foldl_routeTake_block here,
        inductionHypothesis fun later member => own later (List.mem_cons_of_mem _ member)]
      rfl

/-- Blocks of other symbols leave an id routed to a symbol exactly if it was and they do not list
it. -/
theorem foldl_routeBlock_of_others {blocks : List SnapshotBlock} {symbol : UInt32}
    (others : ∀ block ∈ blocks, block.info.symbol ≠ symbol) (id : UInt64)
    (route : Option UInt32) :
    blocks.foldl (routeBlock id) route = some symbol ↔
      route = some symbol ∧ ∀ block ∈ blocks, id ∉ block.ids := by
  induction blocks generalizing route with
  | nil => simp
  | cons block blocks inductionHypothesis =>
      have foreign := others block List.mem_cons_self
      have step : routeBlock id route block = some symbol ↔
          route = some symbol ∧ id ∉ block.ids := by
        rw [routeBlock]
        by_cases listed : id ∈ block.ids
        · rw [if_pos listed]
          exact iff_of_false (fun same => foreign (Option.some.inj same)) fun both => both.2 listed
        · rw [if_neg listed, and_iff_left listed]
          by_cases cleared : route = some block.info.symbol
          · rw [if_pos cleared, cleared]
            exact iff_of_false (fun impossible => by cases impossible)
              fun same => foreign (Option.some.inj same)
          · rw [if_neg cleared]
      rw [List.foldl_cons,
        inductionHypothesis fun later member => others later (List.mem_cons_of_mem _ member), step,
        List.forall_mem_cons, and_assoc]

/-! ### What the listener takes over -/

namespace Listener

/-- The books and routes of the blocks' symbols are those of the blocks, with their cached tops, and
everything of other symbols is as it was. -/
structure TakenOver (blocks : List SnapshotBlock) (before after : Listener) : Prop where
  orders : ∀ block ∈ blocks, ∀ id info,
    (after.book block.info.symbol).orders.lookup id = some info ↔
      ∃ msg ∈ block.orders, msg.orderId = id ∧ msg.info = info
  routes : ∀ block ∈ blocks, ∀ id,
    after.orderToSymbol.lookup id = some block.info.symbol ↔
      ∃ msg ∈ block.orders, msg.orderId = id
  tops : ∀ block ∈ blocks, (after.manager.slots block.info.symbol).flushTopOfBook =
    after.manager.slots block.info.symbol
  otherSlots : ∀ symbol, (∀ block ∈ blocks, block.info.symbol ≠ symbol) →
    after.manager.slots symbol = before.manager.slots symbol
  otherRoutes : ∀ symbol, (∀ block ∈ blocks, block.info.symbol ≠ symbol) → ∀ id,
    after.orderToSymbol.lookup id = some symbol ↔ before.orderToSymbol.lookup id = some symbol

/-- No id of the packet is routed to a symbol that the packet does not list. -/
def OwnIds (listener : Listener) (blocks : List SnapshotBlock) : Prop :=
  ∀ block ∈ blocks, ∀ id ∈ block.ids, ∀ symbol, listener.orderToSymbol.lookup id = some symbol →
    ∃ listed ∈ blocks, listed.info.symbol = symbol

theorem ordersFor_append (symbol : UInt32) (first second : List SnapshotRecord) :
    ordersFor symbol (first ++ second) = ordersFor symbol first ++ ordersFor symbol second :=
  List.filterMap_append

theorem ordersFor_own {orders : List NewOrder} {symbol : UInt32}
    (own : ∀ msg ∈ orders, msg.symbol = symbol) :
    ordersFor symbol (orders.map SnapshotRecord.order) = orders := by
  induction orders with
  | nil => rfl
  | cons msg orders inductionHypothesis =>
      have rest := inductionHypothesis fun later member =>
        own later (List.mem_cons_of_mem _ member)
      rw [ordersFor] at rest ⊢
      simp [own msg List.mem_cons_self, rest]

theorem ordersFor_others {blocks : List SnapshotBlock} {symbol : UInt32}
    (own : ∀ block ∈ blocks, ∀ msg ∈ block.orders, msg.symbol = block.info.symbol)
    (others : ∀ block ∈ blocks, block.info.symbol ≠ symbol) :
    ordersFor symbol (blocks.flatMap SnapshotBlock.records) = [] := by
  rw [ordersFor, List.filterMap_eq_nil_iff]
  intro record member
  obtain ⟨block, within, inBlock⟩ := List.mem_flatMap.mp member
  rcases List.mem_cons.mp inBlock with rfl | isOrder
  · rfl
  · obtain ⟨msg, listed, rfl⟩ := List.mem_map.mp isOrder
    have foreign : msg.symbol ≠ symbol := by
      rw [own block within msg listed]
      exact others block within
    exact if_neg foreign

theorem info_of_mem_records {blocks : List SnapshotBlock} {info : SnapshotInfo}
    (member : .info info ∈ blocks.flatMap SnapshotBlock.records) :
    ∃ block ∈ blocks, block.info = info := by
  obtain ⟨block, within, inBlock⟩ := List.mem_flatMap.mp member
  rcases List.mem_cons.mp inBlock with same | isOrder
  · cases same
    exact ⟨block, within, rfl⟩
  · obtain ⟨msg, -, impossible⟩ := List.mem_map.mp isOrder
    cases impossible

/-- A slot whose cache is that of its book keeps such a cache through a record. -/
theorem flushed_take {listener : Listener} {symbol : UInt32}
    (flushed : (listener.manager.slots symbol).flushTopOfBook = listener.manager.slots symbol)
    (record : SnapshotRecord) :
    ((listener.take record).manager.slots symbol).flushTopOfBook =
      (listener.take record).manager.slots symbol := by
  by_cases asked : symbol ∈ record.slotIds
  · cases record with
    | info msg =>
        cases List.mem_singleton.mp asked
        simp [take, openBlock, SymbolManager.resetBook, SymbolManager.setSlot]
        rfl
    | order msg =>
        cases List.mem_singleton.mp asked
        simp [take, dispatchNewOrder, SymbolManager.onNewOrder, SymbolManager.onBookMsg,
          SymbolManager.setSlot]
        rfl
    | other => exact absurd asked List.not_mem_nil
  · rw [slots_take_of_not_asked asked]
    exact flushed

theorem flushed_openBlock (listener : Listener) (info : SnapshotInfo) :
    ((listener.openBlock info).manager.slots info.symbol).flushTopOfBook =
      (listener.openBlock info).manager.slots info.symbol := by
  simp [openBlock, SymbolManager.resetBook, SymbolManager.setSlot]
  rfl

theorem flushed_foldl_take {records : List SnapshotRecord} {listener : Listener} {symbol : UInt32}
    (flushed : (listener.manager.slots symbol).flushTopOfBook = listener.manager.slots symbol) :
    ((records.foldl take listener).manager.slots symbol).flushTopOfBook =
      (records.foldl take listener).manager.slots symbol := by
  have step : ∀ (before : Listener) (record : SnapshotRecord),
      (before.manager.slots symbol).flushTopOfBook = before.manager.slots symbol →
        ((before.take record).manager.slots symbol).flushTopOfBook =
          (before.take record).manager.slots symbol :=
    fun _ record flushed => flushed_take flushed record
  exact StateMachine.invariant_foldl_always step flushed records

section Blocks

variable {earlier later : List SnapshotBlock} {block : SnapshotBlock}

/-- The symbols of the blocks beside one block are other symbols. -/
theorem others_of_nodup
    (symbols : ((earlier ++ block :: later).map fun block => block.info.symbol).Nodup) :
    ∀ other ∈ later, other.info.symbol ≠ block.info.symbol := by
  rw [List.map_append, List.map_cons] at symbols
  have notAgain := (List.nodup_cons.mp (List.nodup_append.mp symbols).2.1).1
  exact fun other member same => notAgain (List.mem_map.mpr ⟨other, member, same⟩)

theorem records_split (earlier later : List SnapshotBlock) (block : SnapshotBlock) :
    (earlier ++ block :: later).flatMap SnapshotBlock.records =
      earlier.flatMap SnapshotBlock.records ++ .info block.info ::
        (block.orders.map SnapshotRecord.order ++ later.flatMap SnapshotBlock.records) := by
  rw [List.flatMap_append, List.flatMap_cons, SnapshotBlock.records, List.cons_append]

/-- The book of a listed symbol is built from the orders of its block. -/
theorem book_foldl_take_blocks
    (own : ∀ other ∈ earlier ++ block :: later, ∀ msg ∈ other.orders,
      msg.symbol = other.info.symbol)
    (symbols : ((earlier ++ block :: later).map fun block => block.info.symbol).Nodup)
    (listener : Listener) :
    ((((earlier ++ block :: later).flatMap SnapshotBlock.records).foldl take listener).book
        block.info.symbol) =
      (block.orders.map BookMsg.newOrder).foldl OrderBook.next (.empty block.info.symbol) := by
  have others := others_of_nodup symbols
  have ownLater : ∀ other ∈ later, ∀ msg ∈ other.orders, msg.symbol = other.info.symbol :=
    fun other member => own other (List.mem_append_right _ (List.mem_cons_of_mem _ member))
  have noBlock : ∀ info, SnapshotRecord.info info ∈
      block.orders.map SnapshotRecord.order ++ later.flatMap SnapshotBlock.records →
      info.symbol ≠ block.info.symbol := by
    intro info member
    rcases List.mem_append.mp member with isOrder | inLater
    · obtain ⟨msg, -, impossible⟩ := List.mem_map.mp isOrder
      cases impossible
    · obtain ⟨other, within, rfl⟩ := info_of_mem_records inLater
      exact others other within
  have listed : ordersFor block.info.symbol
      (block.orders.map SnapshotRecord.order ++ later.flatMap SnapshotBlock.records) =
      block.orders := by
    rw [ordersFor_append, ordersFor_others ownLater others, List.append_nil]
    exact ordersFor_own (own block (List.mem_append_right _ List.mem_cons_self))
  rw [records_split, List.foldl_append, List.foldl_cons, book_foldl_take noBlock, listed]
  have opened : (((earlier.flatMap SnapshotBlock.records).foldl take listener).take
      (.info block.info)).book block.info.symbol = .empty block.info.symbol :=
    (book_openBlock _ block.info block.info.symbol).trans (if_pos rfl)
  rw [opened]

end Blocks

/-- Well-formed blocks are taken over, whatever the listener knew before. -/
theorem takenOver_foldl_take {blocks : List SnapshotBlock} (wellFormed : WellFormed blocks)
    {listener : Listener} (ownIds : listener.OwnIds blocks) :
    TakenOver blocks listener
      ((blocks.flatMap SnapshotBlock.records).foldl take listener) := by
  constructor
  · intro block member id info
    have distinct : block.ids.Nodup := by
      obtain ⟨earlier, later, rfl⟩ := List.append_of_mem member
      have ids := wellFormed.ids
      rw [List.flatMap_append, List.flatMap_cons] at ids
      exact (List.nodup_append.mp (List.nodup_append.mp ids).2.1).1
    have typed := wellFormed.typed block member
    have storable := wellFormed.storable block member
    obtain ⟨earlier, later, rfl⟩ := List.append_of_mem member
    rw [book_foldl_take_blocks wellFormed.own wellFormed.symbols,
      OrderBook.lookup_foldl_newOrders typed]
    exact OrderBook.firstStorable_eq_some_iff storable distinct
  · intro block member id
    obtain ⟨earlier, later, rfl⟩ := List.append_of_mem member
    have others := others_of_nodup wellFormed.symbols
    rw [lookup_foldl_take, foldl_routeTake_blocks wellFormed.own, List.foldl_append,
      List.foldl_cons, foldl_routeBlock_of_others others]
    have listed : id ∈ block.ids ↔ ∃ msg ∈ block.orders, msg.orderId = id := List.mem_map
    rw [← listed, routeBlock]
    constructor
    · rintro ⟨routed, -⟩
      by_contra absent
      rw [if_neg absent] at routed
      split at routed
      · cases routed
      · rename_i elsewhere
        exact elsewhere routed
    · intro here
      refine ⟨if_pos here, ?_⟩
      intro other within again
      have ids := wellFormed.ids
      rw [List.flatMap_append, List.flatMap_cons] at ids
      obtain ⟨-, -, apart⟩ := List.nodup_append.mp (List.nodup_append.mp ids).2.1
      exact apart id here id (List.mem_flatMap.mpr ⟨other, within, again⟩) rfl
  · intro block member
    obtain ⟨earlier, later, rfl⟩ := List.append_of_mem member
    rw [records_split, List.foldl_append, List.foldl_cons]
    exact flushed_foldl_take (flushed_openBlock _ block.info)
  · intro symbol others
    apply slots_foldl_take_of_not_asked
    intro asked
    obtain ⟨record, member, names⟩ := List.mem_flatMap.mp asked
    obtain ⟨block, within, inBlock⟩ := List.mem_flatMap.mp member
    rcases List.mem_cons.mp inBlock with rfl | isOrder
    · exact others block within (List.mem_singleton.mp names).symm
    · obtain ⟨msg, listed, rfl⟩ := List.mem_map.mp isOrder
      have here : symbol = msg.symbol := List.mem_singleton.mp names
      rw [wellFormed.own block within msg listed] at here
      exact others block within here.symm
  · intro symbol others id
    rw [lookup_foldl_take, foldl_routeTake_blocks wellFormed.own,
      foldl_routeBlock_of_others others]
    constructor
    · exact fun both => both.1
    · intro routed
      refine ⟨routed, ?_⟩
      intro block member listed
      obtain ⟨known, within, same⟩ := ownIds block member id listed symbol routed
      exact others known within same

/-- For every well-formed packet, whatever the rest of the buffer holds, and every listener that
routes none of the packet's ids to a symbol outside it: the loops over the packet's bytes come to an
end, and the blocks are taken over. -/
theorem readPacket_of_wellFormed (sent : List WireBlock)
    (wellFormed : WellFormed (sent.map WireBlock.block)) (packet : RawPacket)
    (holds : Holds packet.buf 0 (packetBytes sent))
    (whole : packet.bytes = (packetBytes sent).length) (listener : Listener)
    (ownIds : listener.OwnIds (sent.map WireBlock.block)) :
    ∃ after, readPacket packet packet.bytes listener Cursor.start = some after ∧
      TakenOver (sent.map WireBlock.block) listener after := by
  have announced : ∀ block ∈ sent, block.block.Announced :=
    fun block member => wellFormed.announced _ (List.mem_map_of_mem member)
  have takes := RawPacket.takes_blocks announced holds (by omega)
  rw [Nat.zero_add, ← whole] at takes
  have ended : packet.nextRecord ⟨packet.bytes, 0⟩ = none := by
    apply RawPacket.nextRecord_of_neither
    · exact fun order => Nat.lt_irrefl 0 order.1
    · exact fun opens => Nat.lt_irrefl _ opens.1
  have enough := length_records_le sent
  rw [← whole] at enough
  refine ⟨_, readPacket_eq_readSnapshot takes ended enough, ?_⟩
  have taken : taken (some 0) ((sent.map WireBlock.block).flatMap SnapshotBlock.records) = _ :=
    RawPacket.taken_of_takes takes
  rw [readSnapshot_eq, taken]
  exact takenOver_foldl_take wellFormed ownIds

/-- A dorm with a buy and a sell, and another dorm with no orders. -/
def twoDorms : List WireBlock :=
  [{ magicNumber := SNAPSHOT_MAGIC_NUMBER, seqNum := 20, timestamp := 5, info := ⟨3, 1, 1, 19⟩
     orders :=
      [⟨SNAPSHOT_MAGIC_NUMBER, 5, ⟨⟨4, .NEW_ORDER⟩, 7, 3, .BUY, 5, 100⟩, 0⟩,
       ⟨SNAPSHOT_MAGIC_NUMBER, 5, ⟨⟨9, .NEW_ORDER⟩, 8, 3, .SELL, 2, 104⟩, 1⟩] },
   { magicNumber := SNAPSHOT_MAGIC_NUMBER, seqNum := 20, timestamp := 5, info := ⟨4, 0, 0, 19⟩
     orders := [] }]

/-- The packet as it stands at the start of a buffer. -/
def twoDormsPacket : RawPacket where
  buf := fun offset => (packetBytes twoDorms).getD offset 255
  bytes := 168

/-- A listener that still knows an order of the second dorm, and one of a symbol that is not in the
packet. -/
def staleListener : Listener :=
  ((start .empty).dispatchNewOrder ⟨⟨1, .NEW_ORDER⟩, 5, 4, .BUY, 1, 90⟩).dispatchNewOrder
    ⟨⟨2, .NEW_ORDER⟩, 6, 13, .SELL, 1, 900⟩

theorem readPacket_of_wellFormed_twoDorms :
    ∃ after, readPacket twoDormsPacket twoDormsPacket.bytes staleListener Cursor.start =
        some after ∧
      TakenOver (twoDorms.map WireBlock.block) staleListener after := by
  have wellFormed : WellFormed (twoDorms.map WireBlock.block) := by
    constructor <;> decide
  have ownIds : staleListener.OwnIds (twoDorms.map WireBlock.block) := by
    intro block member id listed symbol routed
    have here : id ∈ [7, 8] := List.mem_flatMap.mpr ⟨block, member, listed⟩
    have unrouted : staleListener.orderToSymbol.lookup id = none := by
      rcases List.mem_cons.mp here with rfl | second
      · rfl
      · rw [List.mem_singleton.mp second]
        rfl
    rw [unrouted] at routed
    cases routed
  exact readPacket_of_wellFormed twoDorms wellFormed twoDormsPacket (by decide +kernel)
    (by decide +kernel) staleListener ownIds

end Listener

end HftAlgorithms
