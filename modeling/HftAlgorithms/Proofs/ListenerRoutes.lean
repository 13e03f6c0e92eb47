/-
Module: HftAlgorithms.Proofs.ListenerRoutes
Purpose: In every state of a run of the listener, between two records of a packet
  or two drained messages as much as between two packets, each resting order is
  routed to the book it rests in.
Trusted boundary: none
Main exports: Packet.Announces, Listener.Routes, Listener.PassesThrough,
  Listener.routes_of_passesThrough
-/
import HftAlgorithms.Lib.StateMachine
import HftAlgorithms.Proofs.SnapshotReading

namespace HftAlgorithms

open FiniteMap StateMachine

/-! ### Packets of an exchange that announces each id for one symbol -/

/-- Every order a packet announces, in a snapshot or live, is for the symbol that its id has, and
every symbol a packet names has a slot. -/
structure Packet.Announces (symbolOf : UInt64 → UInt32) (packet : Packet) : Prop where
  snapshot : ∀ records, packet = .snapshot records → ∀ record ∈ records,
    (∀ msg, record = .order msg → symbolOf msg.orderId = msg.symbol ∧ msg.symbol ∈ symbolIds) ∧
      ∀ info, record = .info info → info.symbol ∈ symbolIds
  live : ∀ msg, packet = .book (.newOrder msg) →
    symbolOf msg.orderId = msg.symbol ∧ msg.symbol ∈ symbolIds

/-- The packet of an event, if there is one. -/
def ListenerEvent.packet : ListenerEvent → Option Packet
  | .live packet => some packet
  | .replay packet => some packet
  | .timeout => none

namespace Listener

/-! ### What is claimed -/

/-- Each resting order is routed to its book, and a message about it takes effect there. -/
structure Routes (listener : Listener) : Prop where
  route : ∀ symbol ∈ symbolIds, ∀ id info,
    (listener.book symbol).orders.lookup id = some info →
      listener.orderToSymbol.lookup id = some symbol ∧
        info.symbol = (listener.book symbol).symbol
  reaches : ∀ symbol ∈ symbolIds, ∀ id info,
    (listener.book symbol).orders.lookup id = some info →
      ∀ msg : BookMsg, msg.isNew = false → msg.orderId = id →
        (listener.dispatch msg).book symbol = (listener.book symbol).next msg ∧
          ((listener.dispatch msg).book symbol).orders.lookup id = info.rest msg

/-- A state the listener is in after one event, or on the way there: between two records of a
packet that it does not buffer, or between two messages that it drains. -/
inductive Visits (listener : Listener) : ListenerEvent → Listener → Prop where
  | after (event : ListenerEvent) : Visits listener event (listener.next event)
  | live {records read : List SnapshotRecord} (running : listener.running = true)
      (caughtUp : listener.caughtUp = true) (isPrefix : read <+: records) :
      Visits listener (.live (.snapshot records)) (listener.readSnapshot read)
  | replay {records read : List SnapshotRecord} (running : listener.running = true)
      (isPrefix : read <+: records) :
      Visits listener (.replay (.snapshot records)) (listener.readSnapshot read)
  | draining {drained : List BookMsg} (running : listener.running = true)
      (isPrefix : drained <+: listener.liveBuffer.filterMap Packet.bookMsg) :
      Visits listener .timeout (drained.foldl dispatch
        { listener with noReplayCount := listener.noReplayCount + 1 })

/-- A state that the run over `events` passes through. -/
inductive PassesThrough (events : List ListenerEvent) : Listener → Prop where
  | start : PassesThrough events (start .empty)
  | visit {earlier : List ListenerEvent} {event : ListenerEvent} {state : Listener}
      (isPrefix : earlier ++ [event] <+: events)
      (visits : Visits (earlier.foldl next (Listener.start .empty)) event state) :
      PassesThrough events state

/-! ### The invariant -/

/-- Routing is coherent, and what waits in the buffer keeps it so. -/
structure Settled (symbolOf : UInt64 → UInt32) (listener : Listener) : Prop where
  coherent : listener.Coherent symbolOf fun _ => True
  buffered : ∀ packet ∈ listener.liveBuffer, packet.Announces symbolOf

section Settled

variable {symbolOf : UInt64 → UInt32} {listener : Listener}

/-- Coherence is about the books and the routes alone. -/
theorem Coherent.congr {symbols : UInt32 → Prop} {other : Listener}
    (coherent : listener.Coherent symbolOf symbols) (manager : other.manager = listener.manager)
    (routes : other.orderToSymbol = listener.orderToSymbol) :
    other.Coherent symbolOf symbols := by
  intro symbol covered
  rw [book, manager, routes]
  exact coherent symbol covered

/-- A packet announces what the messages in it announce. -/
theorem announces_bookMsg {packet : Packet} (announces : packet.Announces symbolOf)
    {msg : BookMsg} (carries : packet.bookMsg = some msg) : Announces symbolOf msg := by
  cases packet with
  | book carried =>
      cases carries
      cases msg with
      | newOrder msg => exact (announces.live msg rfl).1
      | deleteOrder msg => trivial
      | modifyOrder msg => trivial
      | trade msg => trivial
  | snapshot records => cases carries
  | heartbeat => cases carries
  | otherMessage => cases carries
  | foreign => cases carries

/-- Whatever follows an opened block, and an order in it, keeps routing coherent. -/
theorem Coherent.readRecord {left : Option Nat}
    (coherent : listener.Coherent symbolOf fun _ => True) {record : SnapshotRecord}
    (announced : ∀ msg, record = .order msg → symbolOf msg.orderId = msg.symbol) :
    (readRecord (listener, left) record).1.Coherent symbolOf fun _ => True := by
  cases left with
  | none => exact coherent
  | some left =>
      cases record with
      | info msg =>
          intro symbol _
          exact coherent.openBlock msg symbol (Or.inl trivial)
      | order msg =>
          cases left with
          | zero => exact coherent
          | succ left =>
              by_cases typed : msg.header.msgType = .NEW_ORDER
              · have step : Listener.readRecord (listener, some (left + 1)) (.order msg) =
                    (listener.dispatch (.newOrder msg), some left) := if_pos typed
                rw [step]
                exact coherent.dispatch (announced msg rfl)
              · have step : Listener.readRecord (listener, some (left + 1)) (.order msg) =
                    (listener, none) := if_neg typed
                rw [step]
                exact coherent
      | other => exact coherent

theorem Coherent.foldl_readRecord {records : List SnapshotRecord}
    (announced : ∀ record ∈ records, ∀ msg, record = .order msg →
      symbolOf msg.orderId = msg.symbol)
    {reading : Listener × Option Nat}
    (coherent : reading.1.Coherent symbolOf fun _ => True) :
    (records.foldl Listener.readRecord reading).1.Coherent symbolOf fun _ => True := by
  induction records generalizing reading with
  | nil => exact coherent
  | cons record records inductionHypothesis =>
      apply inductionHypothesis fun later member => announced later (List.mem_cons_of_mem _ member)
      exact coherent.readRecord (announced record List.mem_cons_self)

/-- A snapshot packet, and any beginning of one, keeps routing coherent. -/
theorem Coherent.readSnapshot (coherent : listener.Coherent symbolOf fun _ => True)
    {records read : List SnapshotRecord}
    (announces : (Packet.snapshot records).Announces symbolOf) (isPrefix : read <+: records) :
    (listener.readSnapshot read).Coherent symbolOf fun _ => True := by
  apply Coherent.foldl_readRecord _ coherent
  intro record member msg isOrder
  exact ((announces.snapshot records rfl record (isPrefix.subset member)).1 msg isOrder).1

/-- Draining any beginning of the buffer keeps routing coherent. -/
theorem Settled.coherent_drained (settled : listener.Settled symbolOf) {drained : List BookMsg}
    (isPrefix : drained <+: listener.liveBuffer.filterMap Packet.bookMsg) :
    (drained.foldl Listener.dispatch listener).Coherent symbolOf fun _ => True := by
  refine (settled.coherent.foldl_dispatch ?_).1
  intro msg member
  obtain ⟨packet, waiting, carries⟩ := List.mem_filterMap.mp (isPrefix.subset member)
  exact announces_bookMsg (settled.buffered packet waiting) carries

theorem Coherent.process (coherent : listener.Coherent symbolOf fun _ => True) {packet : Packet}
    (announces : packet.Announces symbolOf) :
    (listener.process packet).Coherent symbolOf fun _ => True := by
  cases packet with
  | snapshot records => exact coherent.readSnapshot announces (List.prefix_refl _)
  | book msg => exact (coherent.dispatch (announces_bookMsg announces rfl)).congr rfl rfl
  | heartbeat => exact coherent.congr rfl rfl
  | otherMessage => exact coherent.congr rfl rfl
  | foreign => exact coherent

/-! ### Steps -/

/-- The buffer is replaced by packets that keep routing coherent. -/
theorem Settled.of_same {after : Listener} (coherent : after.Coherent symbolOf fun _ => True)
    (settled : listener.Settled symbolOf) (same : after.loopState = listener.loopState) :
    after.Settled symbolOf := by
  refine ⟨coherent, ?_⟩
  have buffer : after.liveBuffer = listener.liveBuffer := congrArg Prod.fst same
  rw [buffer]
  exact settled.buffered

theorem Settled.process (settled : listener.Settled symbolOf) {packet : Packet}
    (announces : packet.Announces symbolOf) : (listener.process packet).Settled symbolOf :=
  Settled.of_same (settled.coherent.process announces) settled (loopState_process listener packet)

theorem Settled.bufferLive (settled : listener.Settled symbolOf) {packet : Packet}
    (announces : packet.Announces symbolOf) : (listener.bufferLive packet).Settled symbolOf := by
  rw [Listener.bufferLive]
  split
  · exact ⟨settled.coherent.congr rfl rfl, settled.buffered⟩
  · refine ⟨settled.coherent.congr rfl rfl, ?_⟩
    intro waiting member
    rcases List.mem_append.mp member with earlier | last
    · exact settled.buffered waiting earlier
    · rw [List.mem_singleton.mp last]
      exact announces

/-- Counting quiet periods touches neither books nor routes. -/
theorem Settled.counted (settled : listener.Settled symbolOf) (count : Nat) :
    { listener with noReplayCount := count }.Settled symbolOf :=
  ⟨settled.coherent.congr rfl rfl, settled.buffered⟩

theorem Settled.drain (settled : listener.Settled symbolOf) :
    listener.drain.Settled symbolOf := by
  refine ⟨?_, fun _ waiting => absurd waiting List.not_mem_nil⟩
  exact (settled.coherent_drained (List.prefix_refl _)).congr rfl rfl

/-- One event keeps routing coherent. -/
theorem Settled.next (settled : listener.Settled symbolOf) {event : ListenerEvent}
    (announced : ∀ packet, event.packet = some packet → packet.Announces symbolOf) :
    (listener.next event).Settled symbolOf := by
  cases runs : listener.running with
  | false =>
      have same : listener.next event = listener := if_pos (by simp [runs])
      rw [same]
      exact settled
  | true =>
      cases event with
      | live packet =>
          have announces := announced packet rfl
          rw [Listener.next, if_neg (by simp [runs])]
          split
          · exact settled.process announces
          · exact settled.bufferLive announces
      | replay packet =>
          rw [Listener.next, if_neg (by simp [runs])]
          exact settled.process (announced packet rfl)
      | timeout =>
          rcases next_timeout_cases runs with ⟨count, counted⟩ | ⟨count, drained⟩
          · rw [counted]
            exact settled.counted count
          · rw [drained]
            exact (settled.counted count).drain

/-- The states on the way through one event are coherent too. -/
theorem Settled.coherent_of_visits (settled : listener.Settled symbolOf) {event : ListenerEvent}
    (announced : ∀ packet, event.packet = some packet → packet.Announces symbolOf)
    {state : Listener} (visits : listener.Visits event state) :
    state.Coherent symbolOf fun _ => True := by
  cases visits with
  | after _ => exact (settled.next announced).coherent
  | live _ _ isPrefix => exact settled.coherent.readSnapshot (announced _ rfl) isPrefix
  | replay _ isPrefix => exact settled.coherent.readSnapshot (announced _ rfl) isPrefix
  | draining _ isPrefix => exact (settled.counted _).coherent_drained isPrefix

/-- A message about a resting order of a coherent listener is routed to the order's book. -/
theorem Coherent.target_eq (coherent : listener.Coherent symbolOf fun _ => True)
    {symbol : UInt32} {id : UInt64} {info : OrderInfo}
    (rests : (listener.book symbol).orders.lookup id = some info) {msg : BookMsg}
    (notNew : msg.isNew = false) (same : msg.orderId = id) :
    listener.target msg = some symbol := by
  subst id
  have route := ((coherent symbol trivial).2 _ info rests).2.2
  cases msg with
  | newOrder msg => cases notNew
  | deleteOrder msg => exact route
  | modifyOrder msg => exact route
  | trade msg => exact route

theorem Coherent.routes (coherent : listener.Coherent symbolOf fun _ => True) :
    listener.Routes := by
  constructor
  · intro symbol _ id info rests
    obtain ⟨ownSymbol, entries⟩ := coherent symbol trivial
    obtain ⟨sameSymbol, -, route⟩ := entries id info rests
    exact ⟨route, sameSymbol.trans ownSymbol.symm⟩
  · intro symbol _ id info rests msg notNew same
    have reached : (listener.dispatch msg).book symbol = (listener.book symbol).next msg := by
      rw [book_dispatch, if_pos (coherent.target_eq rests notNew same)]
    refine ⟨reached, ?_⟩
    rw [reached, OrderBook.lookup_next (coherent.own trivial), if_pos same.symm, same, rests,
      entryStep]

end Settled

/-! ### Runs -/

theorem settled_start (symbolOf : UInt64 → UInt32) : (start .empty).Settled symbolOf :=
  ⟨coherent_start symbolOf _, fun _ waiting => absurd waiting List.not_mem_nil⟩

/-- When no id is announced for two symbols, every state that a run passes through routes each
resting order to its book. -/
theorem routes_of_passesThrough {symbolOf : UInt64 → UInt32} {events : List ListenerEvent}
    (announced : ∀ event ∈ events, ∀ packet, event.packet = some packet →
      packet.Announces symbolOf)
    {state : Listener} (passes : PassesThrough events state) : state.Routes := by
  cases passes with
  | start => exact (settled_start symbolOf).coherent.routes
  | @visit earlier event state isPrefix visits =>
      have settled : ∀ processed, processed <+: earlier →
          (processed.foldl next (start .empty)).Settled symbolOf := by
        have allowed : Along next (fun _ event => ∀ packet, event.packet = some packet →
            packet.Announces symbolOf) (start .empty) earlier := by
          apply along_of_forall
          intro event member
          exact announced event (isPrefix.subset (List.mem_append_left _ member))
        apply invariant_everywhere _ (settled_start symbolOf) allowed
        intro listener event settled announces
        exact settled.next announces
      have last : event ∈ events :=
        isPrefix.subset (List.mem_append_right _ (List.mem_singleton.mpr rfl))
      exact ((settled earlier (List.prefix_refl _)).coherent_of_visits (announced event last)
        visits).routes

/-- A buy of five for the first dorm. -/
def restingBuy : NewOrder :=
  { header := ⟨4, .NEW_ORDER⟩, orderId := 7, symbol := 3, side := .BUY, quantity := 5
    price := 100 }

/-- The dorm's snapshot, with that buy. -/
def snapshotThenSilence : List ListenerEvent :=
  [.replay (.snapshot [.info ⟨3, 1, 0, 4⟩, .order restingBuy]), .timeout]

theorem routes_of_passesThrough_snapshotThenSilence :
    ((snapshotThenSilence.foldl next (start .empty)).book 3).orders.lookup 7 =
        some restingBuy.info ∧
      (snapshotThenSilence.foldl next (start .empty)).Routes := by
  refine ⟨by decide +kernel, ?_⟩
  have visits : Visits ((snapshotThenSilence.take 1).foldl next (start .empty)) .timeout
      (snapshotThenSilence.foldl next (start .empty)) := .after .timeout
  have announced : ∀ event ∈ snapshotThenSilence, ∀ packet, event.packet = some packet →
      packet.Announces fun _ => 3 := by
    intro event member packet carries
    rcases List.mem_cons.mp member with rfl | later
    · cases carries
      refine ⟨?_, fun msg isBook => by cases isBook⟩
      rintro records ⟨⟩ record within
      rcases List.mem_cons.mp within with rfl | order
      · refine ⟨fun msg isOrder => (by cases isOrder), ?_⟩
        rintro info ⟨⟩
        decide
      · rw [List.mem_singleton.mp order]
        refine ⟨?_, fun info isInfo => (by cases isInfo)⟩
        rintro msg ⟨⟩
        decide
    · rw [List.mem_singleton.mp later] at carries
      cases carries
  exact routes_of_passesThrough announced (.visit (List.prefix_refl _) visits)

end Listener

end HftAlgorithms
