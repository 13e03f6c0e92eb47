/-
Module: HftAlgorithms.Proofs.CatchUp
Purpose: When the books that the listener has after a snapshot and the drain of its
  buffer are those of the whole history.  The drain applies what the snapshot
  already reflects a second time.
Trusted boundary: none
Main exports: SnapshotBlock.Safe, CatchUp, catchUp_iff
-/
import HftAlgorithms.Proofs.BookLevels
import HftAlgorithms.Proofs.Retelling
import HftAlgorithms.Proofs.SnapshotReading

namespace HftAlgorithms

open FiniteMap OverlapLog StateMachine

/-! ### Orders -/

section Retelling

variable {history : List BookMsg}

theorem about_upTo (id : UInt64) (k : Nat) :
    about id (upTo BookMsg.seqKey k history) = upTo BookMsg.seqKey k (about id history) := by
  rw [about, about, upTo, upTo, List.filter_filter, List.filter_filter]
  exact List.filter_congr fun _ _ => Bool.and_comm _ _

theorem about_since (id : UInt64) (j : Nat) :
    about id (since BookMsg.seqKey j history) = since BookMsg.seqKey j (about id history) := by
  rw [about, about, since, since, List.filter_filter, List.filter_filter]
  exact List.filter_congr fun _ _ => Bool.and_comm _ _

/-- An order whose story is told up to `k` and again from `j` on ends as the whole story has it
exactly when it is gone by then or counted once. -/
theorem ExchangeHistory.entry_iff (exchange : ExchangeHistory history) {j k : Nat}
    (overlap : j ≤ k + 1) (id : UInt64) :
    (since BookMsg.seqKey j (about id history)).foldl entryStep
        (((upTo BookMsg.seqKey k (about id history)).foldl entryStep none).filter
          fun info => info.Storable) =
      (about id history).foldl entryStep none ↔
    ∀ info, (upTo BookMsg.seqKey k (about id history)).foldl entryStep none = some info →
      (about id history).foldl entryStep none ≠ none →
        CountedOnce info (between BookMsg.seqKey j k (about id history))
          (since BookMsg.seqKey j (about id history)) := by
  have ordered : Ordered BookMsg.seqKey (about id history) := exchange.ordered.filter _
  obtain ⟨before, after, whole, early, late⟩ := ordered.exists_before_after overlap
  have newFirst := exchange.newFirst_about id
  rw [whole] at newFirst
  have decided := entry_retold_iff newFirst
  rwa [← whole, ← early, ← late] at decided

end Retelling

namespace Listener

variable {history : List BookMsg}

/-- One book: read as it stood after `k`, then told from `j` on. -/
theorem orders_eq_iff (exchange : ExchangeHistory history) {j k : Nat} (overlap : j ≤ k + 1)
    {listener : Listener} (coherent : listener.Coherent (symbolOf history) fun _ => True)
    {symbol : UInt32}
    (entries : ∀ id, symbolOf history id = symbol → (listener.book symbol).orders.lookup id =
      (((replayAll (upTo BookMsg.seqKey k history)).book symbol).orders.lookup id).filter
        fun info => info.Storable) :
    (((since BookMsg.seqKey j history).foldl dispatch listener).book symbol).orders =
        ((replayAll history).book symbol).orders ↔
      ∀ id info,
        ((replayAll (upTo BookMsg.seqKey k history)).book symbol).orders.lookup id = some info →
          (about id history).foldl entryStep none ≠ none →
            CountedOnce info (between BookMsg.seqKey j k (about id history))
              (since BookMsg.seqKey j (about id history)) := by
  have announces := exchange.announces
  obtain ⟨stays, told⟩ := coherent.foldl_dispatch
    (fun msg (member : msg ∈ since BookMsg.seqKey j history) =>
      announces msg (List.mem_filter.mp member).1)
  have reflected := lookup_replayAll (fun msg
    (member : msg ∈ upTo BookMsg.seqKey k history) =>
      announces msg (List.mem_filter.mp member).1) symbol
  constructor
  · intro same id info shown
    rw [reflected, about_upTo] at shown
    by_cases own : symbolOf history id = symbol
    · rw [if_pos own] at shown
      have equal := congrArg (fun orders => orders.lookup id) same
      rw [told symbol trivial id own, entries id own, reflected, if_pos own, about_upTo,
        about_since, lookup_replayAll announces, if_pos own] at equal
      exact (exchange.entry_iff overlap id).mp equal info shown
    · rw [if_neg own] at shown
      cases shown
  · intro counted
    apply Finmap.ext_lookup
    intro id
    rw [lookup_replayAll announces]
    by_cases own : symbolOf history id = symbol
    · rw [if_pos own, told symbol trivial id own, entries id own, reflected, if_pos own, about_upTo,
        about_since]
      apply (exchange.entry_iff overlap id).mpr
      intro info shown
      apply counted id info
      rw [reflected, if_pos own, about_upTo, shown]
    · rw [if_neg own]
      cases found : (((since BookMsg.seqKey j history).foldl dispatch listener).book
          symbol).orders.lookup id with
      | none => rfl
      | some info => exact absurd ((stays symbol trivial).2 id info found).2.1 own

end Listener

/-! ### Levels -/

namespace Listener

/-- The level sums of every book fit in 32 bits. -/
def SumsFit (listener : Listener) : Prop := ∀ symbol, (listener.book symbol).SumsFit

/-- They fit before and after each message. -/
def Fits (listener : Listener) (msgs : List BookMsg) : Prop :=
  ∀ earlier, earlier <+: msgs → (earlier.foldl dispatch listener).SumsFit

theorem totalQuantity_foldl_dispatch_le (listener : Listener) (msgs : List BookMsg)
    (symbol : UInt32) :
    ((msgs.foldl dispatch listener).book symbol).totalQuantity ≤
      (listener.book symbol).totalQuantity + (msgs.map BookMsg.brings).sum := by
  induction msgs generalizing listener with
  | nil => exact Nat.le_refl _
  | cons msg msgs inductionHypothesis =>
      have step : ((listener.dispatch msg).book symbol).totalQuantity ≤
          (listener.book symbol).totalQuantity + msg.brings := by
        rw [book_dispatch]
        split
        · exact OrderBook.totalQuantity_next_le _ _
        · exact Nat.le_add_right _ _
      have rest := inductionHypothesis (listener.dispatch msg)
      rw [List.foldl_cons, List.map_cons, List.sum_cons]
      omega

/-- The sums fit all along if everything that is ever brought in does. -/
theorem fits_of_total {listener : Listener} {msgs : List BookMsg}
    (total : ∀ symbol,
      (listener.book symbol).totalQuantity + (msgs.map BookMsg.brings).sum < 2 ^ 32) :
    listener.Fits msgs := by
  rintro earlier ⟨later, rfl⟩ symbol
  apply OrderBook.sumsFit_of_total
  have bound := totalQuantity_foldl_dispatch_le listener earlier symbol
  have fits := total symbol
  rw [List.map_append, List.sum_append] at fits
  rw [OrderBook.totalQuantity] at bound
  omega

theorem sound_foldl_dispatch {listener : Listener} {msgs : List BookMsg}
    (sound : ∀ symbol, (listener.book symbol).Sound) (leaves : ∀ msg ∈ msgs, msg.LeavesQuantity)
    (fits : listener.Fits msgs) : ∀ symbol, ((msgs.foldl dispatch listener).book symbol).Sound := by
  have step : ∀ (listener : Listener) (msg : BookMsg),
      (∀ symbol, (listener.book symbol).Sound) →
      msg.LeavesQuantity ∧ (listener.dispatch msg).SumsFit →
        ∀ symbol, ((listener.dispatch msg).book symbol).Sound := by
    intro listener msg before allowed symbol
    have fits := allowed.2 symbol
    rw [book_dispatch] at fits ⊢
    split
    · rename_i routed
      rw [if_pos routed] at fits
      exact (before symbol).next allowed.1 fits
    · exact before symbol
  exact invariant_foldl step sound ((along_of_prefixes fits).and_inputs leaves)

end Listener

/-! ### The whole catch-up -/

/-- What the code does not double count: every order that a block shows and that rests at the
end is counted once, from sequence number `j` on. -/
def SnapshotBlock.Safe (history : List BookMsg) (j : Nat) (block : SnapshotBlock) : Prop :=
  ∀ msg ∈ block.orders, (about msg.orderId history).foldl entryStep none ≠ none →
    CountedOnce msg.info
      (between BookMsg.seqKey j block.info.lastMdSeqNum.toNat (about msg.orderId history))
      (since BookMsg.seqKey j (about msg.orderId history))

instance decidableSafe (history : List BookMsg) (j : Nat) (block : SnapshotBlock) :
    Decidable (block.Safe history j) :=
  inferInstanceAs (Decidable (∀ msg ∈ block.orders,
    (about msg.orderId history).foldl entryStep none ≠ none →
      CountedOnce msg.info
        (between BookMsg.seqKey j block.info.lastMdSeqNum.toNat (about msg.orderId history))
        (since BookMsg.seqKey j (about msg.orderId history))))

/-- The run `events` of `listener` replays a snapshot of `history`, one block a symbol in any
number of packets, buffers `history` from `j` on, and is drained by one more quiet period.  A
symbol without a block had an empty book at some point that the buffer reaches back to. -/
structure CatchUp (history : List BookMsg) (j : Nat) (packets : List (List SnapshotBlock))
    (listener : Listener) (events : List ListenerEvent) : Prop where
  exchange : ExchangeHistory history
  distinct : (packets.flatten.map fun block => block.info.symbol).Nodup
  reflects : ∀ block ∈ packets.flatten, block.Reflects history
  overlaps : ∀ block ∈ packets.flatten, j ≤ block.info.lastMdSeqNum.toNat + 1
  omitted : ∀ symbol, (∀ block ∈ packets.flatten, symbol ≠ block.info.symbol) →
    listener.book symbol = .empty symbol ∧ ∃ k, j ≤ k + 1 ∧
      ((Listener.replayAll (upTo BookMsg.seqKey k history)).book symbol).orders = ∅
  replayed : events.filterMap ListenerEvent.replayPacket =
    packets.map fun blocks => .snapshot (blocks.flatMap SnapshotBlock.records)
  buffered : (listener.liveBuffer ++ events.filterMap ListenerEvent.livePacket).filterMap
    Packet.bookMsg = since BookMsg.seqKey j history
  catching : (events.foldl Listener.next listener).caughtUp = false
  drains : ((events ++ [ListenerEvent.timeout]).foldl Listener.next listener).caughtUp = true

namespace CatchUp

variable {history : List BookMsg} {j : Nat} {packets : List (List SnapshotBlock)}
  {listener : Listener} {events : List ListenerEvent}

theorem reading (catchUp : CatchUp history j packets listener events) :
    Listener.Reading history packets.flatten listener (events.foldl Listener.next listener) ∧
      ((events.foldl Listener.next listener).liveBuffer.filterMap Packet.bookMsg =
        since BookMsg.seqKey j history) := by
  have drains := catchUp.drains
  rw [List.foldl_append] at drains
  obtain ⟨waiting, -⟩ := Listener.next_timeout_of_drains catchUp.catching drains
  obtain ⟨reading, buffered⟩ := Listener.reading_run catchUp.exchange catchUp.distinct
    catchUp.reflects catchUp.replayed waiting
  refine ⟨reading, ?_⟩
  rw [buffered]
  exact catchUp.buffered

/-- The books after the drain are those of the messages from `j` on, told to the books read. -/
theorem book_caught (catchUp : CatchUp history j packets listener events) (symbol : UInt32) :
    ((events ++ [ListenerEvent.timeout]).foldl Listener.next listener).book symbol =
      ((since BookMsg.seqKey j history).foldl Listener.dispatch
        (events.foldl Listener.next listener)).book symbol := by
  have drains := catchUp.drains
  rw [List.foldl_append] at drains
  obtain ⟨-, count, drained⟩ := Listener.next_timeout_of_drains catchUp.catching drains
  rw [List.foldl_append, List.foldl_cons, List.foldl_nil, drained, Listener.book_drain,
    catchUp.reading.2]

/-- The listener is coherent when the drain starts. -/
theorem coherent (catchUp : CatchUp history j packets listener events) :
    (events.foldl Listener.next listener).Coherent (symbolOf history) fun _ => True := by
  have initial : listener.Coherent (symbolOf history) fun symbol =>
      ∀ block ∈ packets.flatten, symbol ≠ block.info.symbol := by
    intro symbol different
    rw [(catchUp.omitted symbol different).1]
    refine ⟨rfl, ?_⟩
    intro id info found
    cases found
  intro symbol _
  apply catchUp.reading.1.coherent _ initial symbol
  by_cases covered : ∃ block ∈ packets.flatten, symbol = block.info.symbol
  · exact Or.inr covered
  · left
    intro block member same
    exact covered ⟨block, member, same⟩

/-- A block is safe exactly when its symbol's orders come out right. -/
theorem orders_eq_iff_safe (catchUp : CatchUp history j packets listener events)
    {block : SnapshotBlock} (member : block ∈ packets.flatten) :
    (((events ++ [ListenerEvent.timeout]).foldl Listener.next listener).book
        block.info.symbol).orders =
        ((Listener.replayAll history).book block.info.symbol).orders ↔
      block.Safe history j := by
  have reflects := catchUp.reflects block member
  rw [catchUp.book_caught, Listener.orders_eq_iff catchUp.exchange (catchUp.overlaps block member)
    catchUp.coherent]
  · constructor
    · intro counted msg listed
      exact counted msg.orderId msg.info ((reflects.lists _ _).mp ⟨msg, listed, rfl, rfl⟩)
    · intro safe id info shown
      obtain ⟨msg, listed, rfl, rfl⟩ := (reflects.lists id info).mpr shown
      exact safe msg listed
  · intro id own
    rw [catchUp.reading.1.read block member]
    exact reflects.lookup_msgs catchUp.exchange own

/-- A symbol without a block always comes out right. -/
theorem orders_eq_of_omitted (catchUp : CatchUp history j packets listener events)
    {symbol : UInt32} (different : ∀ block ∈ packets.flatten, symbol ≠ block.info.symbol) :
    (((events ++ [ListenerEvent.timeout]).foldl Listener.next listener).book symbol).orders =
      ((Listener.replayAll history).book symbol).orders := by
  obtain ⟨fresh, k, overlap, nothing⟩ := catchUp.omitted symbol different
  rw [catchUp.book_caught, Listener.orders_eq_iff catchUp.exchange overlap catchUp.coherent]
  · intro id info shown
    rw [nothing] at shown
    cases shown
  · intro id _
    rw [catchUp.reading.1.others symbol different, fresh, nothing]
    rfl

/-- The books that were read have levels that their orders determine, if the sums fit. -/
theorem sound_read (catchUp : CatchUp history j packets listener events)
    (fits : (events.foldl Listener.next listener).SumsFit) (symbol : UInt32) :
    ((events.foldl Listener.next listener).book symbol).Sound := by
  by_cases covered : ∃ block ∈ packets.flatten, symbol = block.info.symbol
  · obtain ⟨block, member, rfl⟩ := covered
    have sums := fits block.info.symbol
    rw [catchUp.reading.1.read block member] at sums ⊢
    exact (OrderBook.sound_empty block.info.symbol).newOrders sums
  · have different : ∀ block ∈ packets.flatten, symbol ≠ block.info.symbol :=
      fun block member same => covered ⟨block, member, same⟩
    rw [catchUp.reading.1.others symbol different, (catchUp.omitted symbol different).1]
    exact OrderBook.sound_empty symbol

end CatchUp

/-- After a catch-up the orders of every book are those of the whole history exactly when every
block is safe.  While no level sum exceeds 32 bits and no MODIFY_ORDER empties an order, the same
holds of the books with their price levels. -/
theorem catchUp_iff {history : List BookMsg} {j : Nat} {packets : List (List SnapshotBlock)}
    {listener : Listener} {events : List ListenerEvent}
    (catchUp : CatchUp history j packets listener events) :
    let caught := (events ++ [ListenerEvent.timeout]).foldl Listener.next listener
    ((∀ symbol, (caught.book symbol).orders = ((Listener.replayAll history).book symbol).orders) ↔
        ∀ block ∈ packets.flatten, block.Safe history j) ∧
      ((∀ msg ∈ history, msg.LeavesQuantity) → (Listener.start .empty).Fits history →
        (events.foldl Listener.next listener).Fits (since BookMsg.seqKey j history) →
        ((∀ symbol, (caught.book symbol).SameBook ((Listener.replayAll history).book symbol)) ↔
          ∀ block ∈ packets.flatten, block.Safe history j)) := by
  intro caught
  have ordersIff : (∀ symbol, (caught.book symbol).orders =
      ((Listener.replayAll history).book symbol).orders) ↔
      ∀ block ∈ packets.flatten, block.Safe history j := by
    constructor
    · intro same block member
      exact (catchUp.orders_eq_iff_safe member).mp (same block.info.symbol)
    · intro safe symbol
      by_cases covered : ∃ block ∈ packets.flatten, symbol = block.info.symbol
      · obtain ⟨block, member, rfl⟩ := covered
        exact (catchUp.orders_eq_iff_safe member).mpr (safe block member)
      · exact catchUp.orders_eq_of_omitted fun block member same => covered ⟨block, member, same⟩
  refine ⟨ordersIff, ?_⟩
  intro leaves fits fitsDrained
  rw [← ordersIff]
  refine ⟨fun same symbol => (same symbol).orders, ?_⟩
  intro orders symbol
  refine OrderBook.Sound.sameBook ?_ ?_ (orders symbol)
  · change (((events ++ [ListenerEvent.timeout]).foldl Listener.next listener).book symbol).Sound
    rw [catchUp.book_caught]
    exact Listener.sound_foldl_dispatch (catchUp.sound_read (fitsDrained [] List.nil_prefix))
      (fun msg member => leaves msg (List.mem_filter.mp member).1) fitsDrained symbol
  · have initial : ∀ symbol, ((Listener.start .empty).book symbol).Sound := OrderBook.sound_empty
    exact Listener.sound_foldl_dispatch initial leaves fits symbol

/-! ### One trade -/

/-- An order of ten and a trade of three. -/
def tradedHistory : List BookMsg :=
  [.newOrder ⟨⟨1, .NEW_ORDER⟩, 10, 3, .BUY, 10, 100⟩, .trade ⟨⟨2, .TRADE⟩, 10, 3⟩]

/-- The order is modified afterwards. -/
def modifiedHistory : List BookMsg :=
  tradedHistory ++ [.modifyOrder ⟨⟨3, .MODIFY_ORDER⟩, 10, .BUY, 6, 101⟩]

/-- What rests after the trade. -/
def afterTrade : SnapshotBlock :=
  { info := ⟨3, 1, 0, 2⟩, orders := [⟨⟨2, .NEW_ORDER⟩, 10, 3, .BUY, 7, 100⟩] }

/-- The live feed from the trade on comes before the snapshot, then the replay is quiet. -/
def tradeThenSnapshot (history : List BookMsg) : List ListenerEvent :=
  (since BookMsg.seqKey 2 history).map (fun msg => .live (.book msg)) ++
    .replay (.snapshot afterTrade.records) :: List.replicate 100 .timeout

theorem exchangeHistory_traded : ExchangeHistory tradedHistory where
  ordered := by
    unfold Ordered
    decide
  newFirst := by decide

theorem exchangeHistory_modified : ExchangeHistory modifiedHistory where
  ordered := by
    unfold Ordered
    decide
  newFirst := by decide

/-- What the trade leaves. -/
theorem lookup_tradedHistory (symbol : UInt32) (id : UInt64) :
    ((Listener.replayAll tradedHistory).book symbol).orders.lookup id =
      if id = 10 ∧ symbol = 3 then some ⟨100, 7, .BUY, 3⟩ else none := by
  rw [Listener.lookup_replayAll exchangeHistory_traded.announces]
  by_cases same : id = 10
  · subst same
    have announced : symbolOf tradedHistory 10 = 3 := by decide
    have rests : (about 10 tradedHistory).foldl entryStep none = some ⟨100, 7, .BUY, 3⟩ := by decide
    rw [announced, rests]
    simp [eq_comm]
  · have different : ¬ (10 : UInt64) = id := fun equal => same equal.symm
    have untold : about id tradedHistory = [] := by
      simp [about, tradedHistory, BookMsg.orderId, different]
    simp [untold, same]

theorem reflects_afterTrade {history : List BookMsg}
    (early : upTo BookMsg.seqKey 2 history = tradedHistory) : afterTrade.Reflects history where
  counted := rfl
  typed := by decide
  distinct := by decide
  lists := by
    intro id info
    have shown := lookup_tradedHistory 3 id
    rw [← early] at shown
    change _ ↔ ((Listener.replayAll (upTo BookMsg.seqKey 2 history)).book 3).orders.lookup id =
      some info
    rw [shown]
    by_cases same : id = 10
    · simp [afterTrade, NewOrder.info, same]
    · have different : ¬ (10 : UInt64) = id := fun equal => same equal.symm
      simp [afterTrade, same, different]

/-- Both histories make a catch-up from the trade on. -/
theorem catchUp_afterTrade {history : List BookMsg} (exchange : ExchangeHistory history)
    (early : upTo BookMsg.seqKey 2 history = tradedHistory)
    (replayed : (tradeThenSnapshot history).filterMap ListenerEvent.replayPacket =
      [.snapshot afterTrade.records])
    (buffered : ((tradeThenSnapshot history).filterMap ListenerEvent.livePacket).filterMap
      Packet.bookMsg = since BookMsg.seqKey 2 history)
    (catching : ((tradeThenSnapshot history).foldl Listener.next (.start .empty)).caughtUp = false)
    (drains : ((tradeThenSnapshot history ++ [ListenerEvent.timeout]).foldl Listener.next
      (.start .empty)).caughtUp = true) :
    CatchUp history 2 [[afterTrade]] (.start .empty) (tradeThenSnapshot history) where
  exchange := exchange
  distinct := List.nodup_singleton _
  reflects := by
    intro block member
    cases List.mem_singleton.mp member
    exact reflects_afterTrade early
  overlaps := by decide
  omitted := by
    intro symbol different
    refine ⟨rfl, 2, by decide, ?_⟩
    apply Finmap.ext_lookup
    intro id
    have elsewhere : ¬ (id = 10 ∧ symbol = 3) := fun both =>
      different afterTrade List.mem_cons_self both.2
    rw [early, lookup_tradedHistory, if_neg elsewhere]
    rfl
  replayed := replayed
  buffered := buffered
  catching := catching
  drains := drains

theorem catchUp_traded : CatchUp tradedHistory 2 [[afterTrade]] (.start .empty)
    (tradeThenSnapshot tradedHistory) :=
  catchUp_afterTrade exchangeHistory_traded (by decide) (by decide +kernel) (by decide +kernel)
    (by decide +kernel) (by decide +kernel)

theorem catchUp_modified : CatchUp modifiedHistory 2 [[afterTrade]] (.start .empty)
    (tradeThenSnapshot modifiedHistory) :=
  catchUp_afterTrade exchangeHistory_modified (by decide) (by decide +kernel) (by decide +kernel)
    (by decide +kernel) (by decide +kernel)

/-- The trade is in the snapshot and in the buffer: four are left of the seven that rest. -/
theorem trade_taken_twice :
    CatchUp tradedHistory 2 [[afterTrade]] (.start .empty) (tradeThenSnapshot tradedHistory) ∧
      (((tradeThenSnapshot tradedHistory ++ [ListenerEvent.timeout]).foldl Listener.next
          (.start .empty)).book 3).orders.lookup 10 = some ⟨100, 4, .BUY, 3⟩ ∧
      ((Listener.replayAll tradedHistory).book 3).orders.lookup 10 = some ⟨100, 7, .BUY, 3⟩ :=
  ⟨catchUp_traded, by decide +kernel, by decide +kernel⟩

/-- The MODIFY_ORDER sets the order right. -/
theorem catchUp_iff_modified :
    (∀ symbol, (((tradeThenSnapshot modifiedHistory ++ [ListenerEvent.timeout]).foldl Listener.next
        (.start .empty)).book symbol).SameBook ((Listener.replayAll modifiedHistory).book symbol)) ∧
      ∀ block ∈ [[afterTrade]].flatten, block.Safe modifiedHistory 2 := by
  obtain ⟨-, books⟩ := catchUp_iff catchUp_modified
  have leaves : ∀ msg ∈ modifiedHistory, msg.LeavesQuantity := by
    simp [modifiedHistory, tradedHistory, BookMsg.LeavesQuantity]
  have fits : (Listener.start .empty).Fits modifiedHistory := by
    apply Listener.fits_of_total
    intro symbol
    have brought : 0 + (modifiedHistory.map BookMsg.brings).sum < 2 ^ 32 := by decide
    exact brought
  have fitsDrained : ((tradeThenSnapshot modifiedHistory).foldl Listener.next
      (.start .empty)).Fits (since BookMsg.seqKey 2 modifiedHistory) := by
    apply Listener.fits_of_total
    intro symbol
    by_cases own : symbol = 3
    · subst own
      decide +kernel
    · have different : ∀ block ∈ [[afterTrade]].flatten, symbol ≠ block.info.symbol := by
        intro block member
        cases List.mem_singleton.mp member
        exact own
      have brought :
          0 + ((since BookMsg.seqKey 2 modifiedHistory).map BookMsg.brings).sum < 2 ^ 32 := by
        decide
      rw [catchUp_modified.reading.1.others symbol different]
      exact brought
  have safe : ∀ block ∈ [[afterTrade]].flatten, block.Safe modifiedHistory 2 := by decide +kernel
  exact ⟨(books leaves fits fitsDrained).mpr safe, safe⟩

end HftAlgorithms
