/-
Module: HftAlgorithms.Proofs.SnapshotReading
Purpose: What a run of the listener reads from snapshot packets that reflect a
  history, and what it has buffered meanwhile.
Trusted boundary: none
Main exports: SnapshotBlock, SnapshotBlock.Reflects, Listener.Reading,
  Listener.Waiting, Listener.reading_run, Listener.next_timeout_of_drains
-/
import HftAlgorithms.Lib.StateMachine
import HftAlgorithms.Proofs.Routing

namespace HftAlgorithms

open FiniteMap OverlapLog StateMachine

/-! ### Snapshots -/

/-- The part of a snapshot packet about one symbol. -/
structure SnapshotBlock where
  info : SnapshotInfo
  orders : List NewOrder
deriving DecidableEq, Repr

namespace SnapshotBlock

/-- The records of the block as they stand in the packet. -/
def records (block : SnapshotBlock) : List SnapshotRecord :=
  .info block.info :: block.orders.map .order

/-- The orders of the block as messages. -/
def msgs (block : SnapshotBlock) : List BookMsg := block.orders.map .newOrder

/-- The book the block is a snapshot of: that of its symbol after the history up to its
`last_md_seq_num`. -/
def reflected (history : List BookMsg) (block : SnapshotBlock) : OrderBook :=
  (Listener.replayAll (upTo BookMsg.seqKey block.info.lastMdSeqNum.toNat history)).book
    block.info.symbol

/-- The block lists exactly the orders of that book, once each. -/
structure Reflects (history : List BookMsg) (block : SnapshotBlock) : Prop where
  counted : block.orders.length = (block.info.bidCount + block.info.askCount).toNat
  typed : ∀ msg ∈ block.orders, msg.header.msgType = .NEW_ORDER
  distinct : (block.orders.map NewOrder.orderId).Nodup
  lists : ∀ id info, (∃ msg ∈ block.orders, msg.orderId = id ∧ msg.info = info) ↔
    (block.reflected history).orders.lookup id = some info

end SnapshotBlock

namespace Listener

/-- What the nested loops make of one block. -/
def readBlock (listener : Listener) (block : SnapshotBlock) : Listener :=
  block.msgs.foldl Listener.dispatch (listener.openBlock block.info)

theorem foldl_readRecord_orders {orders : List NewOrder}
    (typed : ∀ msg ∈ orders, msg.header.msgType = .NEW_ORDER) (listener : Listener) :
    (orders.map SnapshotRecord.order).foldl readRecord (listener, some orders.length) =
      ((orders.map BookMsg.newOrder).foldl Listener.dispatch listener, some 0) := by
  induction orders generalizing listener with
  | nil => rfl
  | cons msg orders inductionHypothesis =>
      have step : readRecord (listener, some (msg :: orders).length) (.order msg) =
          (listener.dispatchNewOrder msg, some orders.length) :=
        if_pos (typed msg List.mem_cons_self)
      rw [List.map_cons, List.foldl_cons, step]
      exact inductionHypothesis (fun other member => typed other (List.mem_cons_of_mem _ member)) _

/-- A packet of well-formed blocks is read block by block. -/
theorem readSnapshot_blocks {history : List BookMsg} {blocks : List SnapshotBlock}
    (reflects : ∀ block ∈ blocks, block.Reflects history) (listener : Listener) :
    listener.readSnapshot (blocks.flatMap SnapshotBlock.records) =
      blocks.foldl readBlock listener := by
  have read : (blocks.flatMap SnapshotBlock.records).foldl readRecord (listener, some 0) =
      (blocks.foldl readBlock listener, some 0) := by
    induction blocks generalizing listener with
    | nil => rfl
    | cons block blocks inductionHypothesis =>
        obtain ⟨counted, typed, -, -⟩ := reflects block List.mem_cons_self
        have opened : readRecord (listener, some 0) (.info block.info) =
            (listener.openBlock block.info, some block.orders.length) := by
          rw [counted]
          rfl
        rw [List.flatMap_cons, List.foldl_append, SnapshotBlock.records, List.foldl_cons, opened,
          foldl_readRecord_orders typed]
        exact inductionHypothesis
          (fun other member => reflects other (List.mem_cons_of_mem _ member)) _
  rw [readSnapshot, read]

theorem book_openBlock (listener : Listener) (info : SnapshotInfo) (symbol : UInt32) :
    (listener.openBlock info).book symbol =
      if symbol = info.symbol then .empty symbol else listener.book symbol := by
  by_cases own : symbol = info.symbol
  · subst own
    simp [book, openBlock, SymbolManager.resetBook, SymbolManager.setSlot, SymbolSlot.empty]
  · simp [book, openBlock, SymbolManager.resetBook, SymbolManager.setSlot, own]

theorem Coherent.openBlock {symbolOf : UInt64 → UInt32} {symbols : UInt32 → Prop}
    {listener : Listener} (coherent : listener.Coherent symbolOf symbols) (info : SnapshotInfo) :
    (listener.openBlock info).Coherent symbolOf
      fun symbol => symbols symbol ∨ symbol = info.symbol := by
  intro symbol covered
  rw [book_openBlock]
  by_cases own : symbol = info.symbol
  · rw [if_pos own]
    refine ⟨rfl, ?_⟩
    intro id found lookup
    cases lookup
  · rw [if_neg own]
    obtain ⟨ownSymbol, entries⟩ := coherent symbol (covered.resolve_right own)
    refine ⟨ownSymbol, ?_⟩
    intro id found lookup
    obtain ⟨symbolIs, announced, route⟩ := entries id found lookup
    refine ⟨symbolIs, announced, ?_⟩
    change (listener.orderToSymbol.filter _).lookup id = _
    rw [lookup_filter, route, Option.filter_some_pos (by simpa using own)]

/-- NEW_ORDERs of one symbol touch that symbol's book only. -/
theorem book_foldl_newOrders {orders : List NewOrder} {symbol : UInt32}
    (same : ∀ msg ∈ orders, msg.symbol = symbol) (listener : Listener) (other : UInt32) :
    ((orders.map BookMsg.newOrder).foldl Listener.dispatch listener).book other =
      if other = symbol then (orders.map BookMsg.newOrder).foldl OrderBook.next
        (listener.book other)
      else listener.book other := by
  induction orders generalizing listener with
  | nil =>
      split <;> rfl
  | cons msg orders inductionHypothesis =>
      have here := same msg List.mem_cons_self
      have step := book_dispatch listener (.newOrder msg) other
      rw [target, here] at step
      rw [List.map_cons, List.foldl_cons, List.foldl_cons,
        inductionHypothesis fun next member => same next (List.mem_cons_of_mem _ member), step]
      by_cases own : other = symbol
      · rw [if_pos own, if_pos own, if_pos (congrArg some own.symm)]
      · rw [if_neg own, if_neg own, if_neg fun equal => own (Option.some.inj equal).symm]

end Listener

namespace SnapshotBlock

variable {history : List BookMsg} {block : SnapshotBlock}

/-- What a reflecting block lists are orders of its own symbol. -/
theorem Reflects.ofSymbol (exchange : ExchangeHistory history) (reflects : block.Reflects history) :
    ∀ msg ∈ block.orders, msg.symbol = block.info.symbol ∧
      symbolOf history msg.orderId = block.info.symbol := by
  intro msg member
  have found := (reflects.lists msg.orderId msg.info).mp ⟨msg, member, rfl, rfl⟩
  have announces : ∀ other ∈ upTo BookMsg.seqKey block.info.lastMdSeqNum.toNat history,
      Listener.Announces (symbolOf history) other := fun other within =>
    exchange.announces other (List.mem_filter.mp within).1
  obtain ⟨coherent, -⟩ :=
    (Listener.coherent_start (symbolOf history) fun _ => True).foldl_dispatch announces
  obtain ⟨symbolIs, announced, -⟩ := (coherent block.info.symbol trivial).2 _ _ found
  exact ⟨symbolIs, announced⟩

theorem Reflects.announces (exchange : ExchangeHistory history)
    (reflects : block.Reflects history) :
    ∀ msg ∈ block.msgs, Listener.Announces (symbolOf history) msg := by
  intro msg member
  obtain ⟨order, within, rfl⟩ := List.mem_map.mp member
  obtain ⟨here, announced⟩ := reflects.ofSymbol exchange order within
  exact announced.trans here.symm

theorem about_newOrders_of_absent {orders : List NewOrder} {id : UInt64}
    (absent : ∀ msg ∈ orders, msg.orderId ≠ id) : about id (orders.map BookMsg.newOrder) = [] := by
  apply Interleaving.row_eq_nil
  intro msg member
  obtain ⟨order, within, rfl⟩ := List.mem_map.mp member
  exact absent order within

/-- Among NEW_ORDERs with different ids, the messages about one order are its own. -/
theorem about_newOrders_of_mem {orders : List NewOrder}
    (distinct : (orders.map NewOrder.orderId).Nodup) {msg : NewOrder} (member : msg ∈ orders) :
    about msg.orderId (orders.map BookMsg.newOrder) = [.newOrder msg] := by
  induction orders with
  | nil => exact absurd member List.not_mem_nil
  | cons first orders inductionHypothesis =>
      obtain ⟨notAgain, rest⟩ := List.nodup_cons.mp distinct
      rcases List.mem_cons.mp member with rfl | later
      · have others : about msg.orderId (orders.map BookMsg.newOrder) = [] :=
          about_newOrders_of_absent fun other within same =>
            notAgain (List.mem_map.mpr ⟨other, within, same⟩)
        rw [List.map_cons, about_cons,
          if_pos (show (BookMsg.newOrder msg).orderId = msg.orderId from rfl), others]
      · have different : first.orderId ≠ msg.orderId := fun same =>
          notAgain (List.mem_map.mpr ⟨msg, later, same.symm⟩)
        rw [List.map_cons, about_cons,
          if_neg (show ¬ (BookMsg.newOrder first).orderId = msg.orderId from different)]
        exact inductionHypothesis rest later

/-- What a block tells about one order: the record it lists, if a book can store it. -/
theorem Reflects.about_msgs (reflects : block.Reflects history) (id : UInt64) :
    (about id block.msgs).foldl entryStep none =
      ((block.reflected history).orders.lookup id).filter fun info => info.Storable := by
  cases shown : (block.reflected history).orders.lookup id with
  | none =>
      have absent : ∀ msg ∈ block.orders, msg.orderId ≠ id := by
        intro msg member same
        have found := (reflects.lists id msg.info).mp ⟨msg, member, same, rfl⟩
        rw [shown] at found
        cases found
      rw [msgs, about_newOrders_of_absent absent]
      rfl
  | some info =>
      obtain ⟨msg, member, rfl, rfl⟩ := (reflects.lists id info).mpr shown
      rw [msgs, about_newOrders_of_mem reflects.distinct member, List.foldl_cons, List.foldl_nil,
        entryStep]
      by_cases storable : msg.info.Storable
      · rw [if_pos ⟨reflects.typed msg member, storable⟩,
          Option.filter_some_pos (by simpa using storable)]
      · rw [if_neg fun both => storable both.2, Option.filter_some_neg (by simpa using storable)]

/-- The book that a block is read into holds what the block reflects, as far as a book can
store it. -/
theorem Reflects.lookup_msgs (exchange : ExchangeHistory history)
    (reflects : block.Reflects history) {id : UInt64}
    (own : symbolOf history id = block.info.symbol) :
    (block.msgs.foldl OrderBook.next (.empty block.info.symbol)).orders.lookup id =
      ((block.reflected history).orders.lookup id).filter fun info => info.Storable := by
  have told := Listener.lookup_replayAll (reflects.announces exchange) block.info.symbol id
  have book := Listener.book_foldl_newOrders
    (fun msg member => (reflects.ofSymbol exchange msg member).1)
    (Listener.start .empty) block.info.symbol
  rw [if_pos rfl] at book
  rw [if_pos own, reflects.about_msgs, Listener.replayAll, msgs, book] at told
  exact told

end SnapshotBlock

namespace Listener

variable {history : List BookMsg}

/-! ### Reading blocks -/

/-- The books of the blocks' symbols are read from the blocks, the others are as before. -/
structure Reading (history : List BookMsg) (blocks : List SnapshotBlock)
    (before after : Listener) : Prop where
  coherent : ∀ symbols, before.Coherent (symbolOf history) symbols →
    after.Coherent (symbolOf history) fun symbol =>
      symbols symbol ∨ ∃ block ∈ blocks, symbol = block.info.symbol
  others : ∀ symbol, (∀ block ∈ blocks, symbol ≠ block.info.symbol) →
    after.book symbol = before.book symbol
  read : ∀ block ∈ blocks,
    after.book block.info.symbol = block.msgs.foldl OrderBook.next (.empty block.info.symbol)

/-- What keeps the books and the routes reads no block. -/
theorem Reading.of_same {before after : Listener} (manager : after.manager = before.manager)
    (routes : after.orderToSymbol = before.orderToSymbol) : Reading history [] before after where
  coherent := by
    intro symbols coherent symbol covered
    rw [book, manager, routes]
    rcases covered with already | ⟨block, member, -⟩
    · exact coherent symbol already
    · exact absurd member List.not_mem_nil
  others := by
    intro symbol _
    rw [book, manager, book]
  read := fun _ member => absurd member List.not_mem_nil

/-- Blocks of different symbols are read one list after the other. -/
theorem Reading.append {first second : List SnapshotBlock} {before between after : Listener}
    (earlier : Reading history first before between) (later : Reading history second between after)
    (disjoint : ∀ block ∈ first, ∀ other ∈ second, block.info.symbol ≠ other.info.symbol) :
    Reading history (first ++ second) before after where
  coherent := by
    intro symbols coherent symbol covered
    apply later.coherent _ (earlier.coherent symbols coherent) symbol
    rcases covered with already | ⟨block, member, same⟩
    · exact Or.inl (Or.inl already)
    · rcases List.mem_append.mp member with within | within
      · exact Or.inl (Or.inr ⟨block, within, same⟩)
      · exact Or.inr ⟨block, within, same⟩
  others := by
    intro symbol different
    rw [later.others symbol fun block member => different block (List.mem_append_right _ member),
      earlier.others symbol fun block member => different block (List.mem_append_left _ member)]
  read := by
    intro block member
    rcases List.mem_append.mp member with within | within
    · rw [later.others _ (disjoint block within), earlier.read block within]
    · exact later.read block within

/-- Reading a block rebuilds its symbol's book from the listed orders and leaves every other
book alone. -/
theorem reading_readBlock (exchange : ExchangeHistory history) {block : SnapshotBlock}
    (reflects : block.Reflects history) (listener : Listener) :
    Reading history [block] listener (listener.readBlock block) := by
  have books := book_foldl_newOrders (fun msg member => (reflects.ofSymbol exchange msg member).1)
    (listener.openBlock block.info)
  refine ⟨?_, ?_, ?_⟩
  · intro symbols coherent symbol covered
    apply ((coherent.openBlock block.info).foldl_dispatch (reflects.announces exchange)).1 symbol
    exact covered.imp_right fun ⟨_, member, same⟩ => List.mem_singleton.mp member ▸ same
  · intro symbol different
    have other := different block List.mem_cons_self
    have unchanged := books symbol
    rw [if_neg other, book_openBlock, if_neg other] at unchanged
    exact unchanged
  · intro read member
    cases List.mem_singleton.mp member
    have own := books block.info.symbol
    rw [if_pos rfl, book_openBlock, if_pos rfl] at own
    exact own

theorem ne_of_nodup {first : SnapshotBlock} {blocks : List SnapshotBlock}
    (notAgain : first.info.symbol ∉ blocks.map fun block => block.info.symbol) :
    ∀ other ∈ blocks, first.info.symbol ≠ other.info.symbol :=
  fun other member same => notAgain (List.mem_map.mpr ⟨other, member, same.symm⟩)

theorem reading_readBlocks (exchange : ExchangeHistory history) {blocks : List SnapshotBlock}
    (distinct : (blocks.map fun block => block.info.symbol).Nodup)
    (reflects : ∀ block ∈ blocks, block.Reflects history) (listener : Listener) :
    Reading history blocks listener (blocks.foldl readBlock listener) := by
  induction blocks generalizing listener with
  | nil => exact .of_same rfl rfl
  | cons block blocks inductionHypothesis =>
      obtain ⟨notAgain, rest⟩ := List.nodup_cons.mp distinct
      have first := reading_readBlock exchange (reflects block List.mem_cons_self) listener
      have later := inductionHypothesis rest
        (fun other member => reflects other (List.mem_cons_of_mem _ member))
        (listener.readBlock block)
      refine first.append later ?_
      intro read member
      cases List.mem_singleton.mp member
      exact ne_of_nodup notAgain

/-! ### Runs -/

/-- What packets leave alone: the buffer and the two flags of the loop. -/
def loopState (listener : Listener) : List Packet × Bool × Bool :=
  (listener.liveBuffer, listener.caughtUp, listener.running)

theorem loopState_dispatch (listener : Listener) (msg : BookMsg) :
    (listener.dispatch msg).loopState = listener.loopState := by
  rw [dispatch_eq]
  cases listener.target msg <;> rfl

theorem loopState_readRecord (reading : Listener × Option Nat) (record : SnapshotRecord) :
    (readRecord reading record).1.loopState = reading.1.loopState := by
  unfold readRecord
  split
  · rfl
  · rfl
  · split <;> rfl
  · rfl
  · rfl

theorem loopState_readSnapshot (listener : Listener) (records : List SnapshotRecord) :
    (listener.readSnapshot records).loopState = listener.loopState := by
  have step : ∀ (reading : Listener × Option Nat) (record : SnapshotRecord),
      reading.1.loopState = listener.loopState →
        (readRecord reading record).1.loopState = listener.loopState :=
    fun reading record kept => (loopState_readRecord reading record).trans kept
  have initial : (listener, some 0).1.loopState = listener.loopState := rfl
  exact invariant_foldl_always step initial records

theorem loopState_process (listener : Listener) (packet : Packet) :
    (listener.process packet).loopState = listener.loopState := by
  cases packet with
  | snapshot records => exact loopState_readSnapshot listener records
  | book msg => exact loopState_dispatch listener msg
  | heartbeat => rfl
  | otherMessage => rfl
  | foreign => rfl

theorem caughtUp_process (listener : Listener) (packet : Packet) :
    (listener.process packet).caughtUp = listener.caughtUp :=
  congrArg (fun state => state.2.1) (loopState_process listener packet)

/-- Still catching up. -/
def Waiting (listener : Listener) : Prop :=
  listener.running = true ∧ listener.caughtUp = false

theorem Waiting.of_next {listener : Listener} {event : ListenerEvent}
    (waiting : (listener.next event).Waiting) : listener.Waiting := by
  cases runs : listener.running with
  | false =>
      have same : listener.next event = listener := if_pos (by simp [runs])
      rwa [same] at waiting
  | true =>
      refine ⟨runs, ?_⟩
      cases caught : listener.caughtUp with
      | false => rfl
      | true =>
          have runsOn : ¬ ¬ listener.running := by simp [runs]
          have stays : (listener.next event).caughtUp = true := by
            cases event with
            | live packet =>
                rw [next, if_neg runsOn, if_pos caught, caughtUp_process, caught]
            | replay packet =>
                rw [next, if_neg runsOn]
                exact (caughtUp_process listener packet).trans caught
            | timeout =>
                rw [next, if_neg runsOn, quiet, if_neg (by simp [caught]), caught]
          rw [waiting.2] at stays
          cases stays

theorem Waiting.of_foldl {listener : Listener} {events : List ListenerEvent}
    (waiting : (events.foldl next listener).Waiting) : listener.Waiting := by
  induction events generalizing listener with
  | nil => exact waiting
  | cons event events inductionHypothesis => exact (inductionHypothesis waiting).of_next

end Listener

namespace ListenerEvent

def livePacket : ListenerEvent → Option Packet
  | .live packet => some packet
  | _ => none

def replayPacket : ListenerEvent → Option Packet
  | .replay packet => some packet
  | _ => none

end ListenerEvent

namespace Listener

variable {history : List BookMsg}

/-- A live packet is buffered and touches nothing else. -/
theorem next_live {listener : Listener} {packet : Packet}
    (waiting : (listener.next (.live packet)).Waiting) :
    listener.next (.live packet) =
      { listener with liveBuffer := listener.liveBuffer ++ [packet] } := by
  obtain ⟨runs, catching⟩ := waiting.of_next
  have buffers : listener.next (.live packet) = listener.bufferLive packet := by
    rw [next, if_neg (by simp [runs]), if_neg (by simp [catching])]
  rw [buffers, bufferLive]
  split
  · rename_i full
    rw [buffers, bufferLive, if_pos full] at waiting
    cases waiting.1
  · rfl

/-- A quiet period counts, or ends the catch-up and drains the buffer. -/
theorem next_timeout_cases {listener : Listener} (runs : listener.running = true) :
    (∃ count, listener.next .timeout = { listener with noReplayCount := count }) ∨
      ∃ count, listener.next .timeout = { listener with noReplayCount := count }.drain := by
  have quiets : listener.next .timeout = listener.quiet := if_neg (by simp [runs])
  rw [quiets, quiet]
  split
  · dsimp only
    split
    · exact Or.inr ⟨listener.noReplayCount + 1, rfl⟩
    · exact Or.inl ⟨listener.noReplayCount + 1, rfl⟩
  · exact Or.inl ⟨listener.noReplayCount, rfl⟩

/-- A quiet period that does not end the catch-up only counts. -/
theorem next_timeout {listener : Listener} (waiting : (listener.next .timeout).Waiting) :
    ∃ count, listener.next .timeout = { listener with noReplayCount := count } := by
  rcases next_timeout_cases waiting.of_next.1 with counted | ⟨count, drained⟩
  · exact counted
  · rw [drained] at waiting
    cases waiting.2

/-- The quiet period that ends the catch-up drains the buffer. -/
theorem next_timeout_of_drains {listener : Listener} (catching : listener.caughtUp = false)
    (drains : (listener.next .timeout).caughtUp = true) :
    listener.Waiting ∧
      ∃ count, listener.next .timeout = { listener with noReplayCount := count }.drain := by
  cases runs : listener.running with
  | false =>
      have same : listener.next .timeout = listener := if_pos (by simp [runs])
      rw [same, catching] at drains
      cases drains
  | true =>
      rcases next_timeout_cases runs with ⟨count, counted⟩ | drained
      · rw [counted] at drains
        exact absurd (catching.symm.trans drains) Bool.false_ne_true
      · rw [runs] at drained
        exact ⟨⟨runs, catching⟩, drained⟩

theorem dispatch_noReplayCount (listener : Listener) (count : Nat) (msg : BookMsg) :
    { listener with noReplayCount := count }.dispatch msg =
      { listener.dispatch msg with noReplayCount := count } := by
  have same : { listener with noReplayCount := count }.target msg = listener.target msg := by
    cases msg <;> rfl
  rw [dispatch_eq, dispatch_eq, same]
  cases listener.target msg <;> rfl

/-- Messages are dispatched alike whatever the count of quiet periods. -/
theorem foldl_dispatch_noReplayCount (listener : Listener) (count : Nat) (msgs : List BookMsg) :
    msgs.foldl dispatch { listener with noReplayCount := count } =
      { msgs.foldl dispatch listener with noReplayCount := count } := by
  induction msgs generalizing listener with
  | nil => rfl
  | cons msg msgs inductionHypothesis =>
      rw [List.foldl_cons, dispatch_noReplayCount, inductionHypothesis, List.foldl_cons]

/-- The drain does not look at the count of quiet periods. -/
theorem book_drain (listener : Listener) (count : Nat) (symbol : UInt32) :
    ({ listener with noReplayCount := count }.drain).book symbol =
      ((listener.liveBuffer.filterMap Packet.bookMsg).foldl dispatch listener).book symbol := by
  change (List.foldl dispatch { listener with noReplayCount := count } _).book symbol = _
  rw [foldl_dispatch_noReplayCount]
  rfl

/-- A run that is still catching up has buffered its live packets and read its snapshot
packets, whatever the order they came in. -/
theorem reading_run (exchange : ExchangeHistory history) {packets : List (List SnapshotBlock)}
    (distinct : (packets.flatten.map fun block => block.info.symbol).Nodup)
    (reflects : ∀ block ∈ packets.flatten, block.Reflects history)
    {listener : Listener} {events : List ListenerEvent}
    (replayed : events.filterMap ListenerEvent.replayPacket =
      packets.map fun blocks => .snapshot (blocks.flatMap SnapshotBlock.records))
    (waiting : (events.foldl next listener).Waiting) :
    Reading history packets.flatten listener (events.foldl next listener) ∧
      (events.foldl next listener).liveBuffer =
        listener.liveBuffer ++ events.filterMap ListenerEvent.livePacket := by
  induction events generalizing listener packets with
  | nil =>
      obtain rfl : packets = [] := List.map_eq_nil_iff.mp replayed.symm
      exact ⟨.of_same rfl rfl, (List.append_nil _).symm⟩
  | cons event events inductionHypothesis =>
      have here : (listener.next event).Waiting := Waiting.of_foldl waiting
      rw [List.foldl_cons] at waiting ⊢
      have nothing : ∀ block ∈ ([] : List SnapshotBlock), ∀ other ∈ packets.flatten,
          block.info.symbol ≠ other.info.symbol := fun _ member => absurd member List.not_mem_nil
      cases event with
      | live packet =>
          obtain ⟨reading, buffered⟩ := inductionHypothesis distinct reflects replayed waiting
          have same : Reading history [] listener (listener.next (.live packet)) := by
            rw [next_live here]
            exact .of_same rfl rfl
          refine ⟨same.append reading nothing, ?_⟩
          rw [buffered, next_live here, List.append_assoc]
          rfl
      | timeout =>
          obtain ⟨reading, buffered⟩ := inductionHypothesis distinct reflects replayed waiting
          obtain ⟨count, counted⟩ := next_timeout here
          have same : Reading history [] listener (listener.next .timeout) := by
            rw [counted]
            exact .of_same rfl rfl
          refine ⟨same.append reading nothing, ?_⟩
          rw [buffered, counted]
          rfl
      | replay packet =>
          cases packets with
          | nil => cases replayed
          | cons blocks packets =>
              obtain ⟨rfl, rest⟩ := List.cons.inj replayed
              rw [List.flatten_cons, List.map_append] at distinct
              obtain ⟨first, others, disjoint⟩ := List.nodup_append.mp distinct
              obtain ⟨reading, buffered⟩ := inductionHypothesis others
                (fun block member => reflects block (List.mem_append_right _ member)) rest waiting
              have reflectsHere : ∀ block ∈ blocks, block.Reflects history :=
                fun block member => reflects block (List.mem_append_left _ member)
              have reads :
                  listener.next (.replay (.snapshot (blocks.flatMap SnapshotBlock.records))) =
                    listener.readSnapshot (blocks.flatMap SnapshotBlock.records) :=
                if_neg (by simp [here.of_next.1])
              have now : Reading history blocks listener
                  (listener.next (.replay (.snapshot (blocks.flatMap SnapshotBlock.records)))) := by
                rw [reads, readSnapshot_blocks reflectsHere]
                exact reading_readBlocks exchange first reflectsHere listener
              refine ⟨now.append reading ?_, ?_⟩
              · exact fun block member other within => disjoint _ (List.mem_map_of_mem member) _
                  (List.mem_map_of_mem within)
              · rw [buffered, reads]
                exact congrArg (fun state => state.1 ++ _) (loopState_readSnapshot _ _)

end Listener

end HftAlgorithms
