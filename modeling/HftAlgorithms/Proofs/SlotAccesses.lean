/-
Module: HftAlgorithms.Proofs.SlotAccesses
Purpose: Which slots the listener and the loader of the positions file ask
  `slot(id)` for.  The accessor checks nothing, so an id from outside the table is
  asked for exactly when a packet or a line names one.
Trusted boundary: none
Main exports: Listener.slotIds, Listener.names,
  Listener.slots_next_of_not_asked, Listener.slotIds_in_table_iff
-/
import HftAlgorithms.Proofs.LateSnapshots

namespace HftAlgorithms

open FiniteMap StateMachine

/-! ### What is asked for -/

/-- `load_positions` asks for the slot of every line. -/
def SymbolManager.loadSlotIds (lines : List (UInt32 × Int32)) : List UInt32 := lines.map Prod.fst

/-- A SNAPSHOT_INFO resets its symbol's book, and a NEW_ORDER goes to its symbol's book. -/
def SnapshotRecord.slotIds : SnapshotRecord → List UInt32
  | .info msg => [msg.symbol]
  | .order msg => [msg.symbol]
  | .other => []

/-- The symbol that a message names itself. -/
def BookMsg.names : BookMsg → List UInt32
  | .newOrder msg => [msg.symbol]
  | _ => []

namespace Listener

/-- The slot a dispatched message is handed to: that of the symbol it names, or of the one its
order is routed to. -/
def dispatchSlotIds (listener : Listener) (msg : BookMsg) : List UInt32 :=
  (listener.target msg).toList

/-- The ids that `slot` is called with during an event. -/
def slotIds (listener : Listener) (event : ListenerEvent) : List UInt32 :=
  (listener.handled event).1.flatMap SnapshotRecord.slotIds ++
    emitted dispatch dispatchSlotIds listener (listener.handled event).2

/-- The symbols that are named by what an event makes the listener handle. -/
def names (listener : Listener) (event : ListenerEvent) : List UInt32 :=
  (listener.handled event).1.flatMap SnapshotRecord.slotIds ++
    (listener.handled event).2.flatMap BookMsg.names

/-! ### Slots that are not asked for -/

theorem slots_onBookMsg_of_ne {manager : SymbolManager} {id symbol : UInt32} {msg : BookMsg}
    (other : symbol ≠ id) : (manager.onBookMsg id msg).slots symbol = manager.slots symbol :=
  Function.update_of_ne other _ _

theorem slots_dispatch_of_not_asked {listener : Listener} {msg : BookMsg} {symbol : UInt32}
    (notAsked : symbol ∉ listener.dispatchSlotIds msg) :
    (listener.dispatch msg).manager.slots symbol = listener.manager.slots symbol := by
  rw [dispatch_eq]
  cases routed : listener.target msg with
  | none => rfl
  | some target =>
      apply slots_onBookMsg_of_ne
      simpa [dispatchSlotIds, routed] using notAsked

theorem slots_foldl_dispatch_of_not_asked {msgs : List BookMsg} {listener : Listener}
    {symbol : UInt32} (notAsked : symbol ∉ emitted dispatch dispatchSlotIds listener msgs) :
    (msgs.foldl dispatch listener).manager.slots symbol = listener.manager.slots symbol := by
  induction msgs generalizing listener with
  | nil => rfl
  | cons msg msgs inductionHypothesis =>
      rw [emitted_cons, List.mem_append, not_or] at notAsked
      exact (inductionHypothesis notAsked.2).trans (slots_dispatch_of_not_asked notAsked.1)

theorem slots_take_of_not_asked {listener : Listener} {record : SnapshotRecord} {symbol : UInt32}
    (notAsked : symbol ∉ record.slotIds) :
    (listener.take record).manager.slots symbol = listener.manager.slots symbol := by
  cases record with
  | info msg => exact Function.update_of_ne (List.ne_of_not_mem_cons notAsked) _ _
  | order msg => exact slots_onBookMsg_of_ne (List.ne_of_not_mem_cons notAsked)
  | other => rfl

theorem slots_foldl_take_of_not_asked {records : List SnapshotRecord} {listener : Listener}
    {symbol : UInt32} (notAsked : symbol ∉ records.flatMap SnapshotRecord.slotIds) :
    (records.foldl take listener).manager.slots symbol = listener.manager.slots symbol := by
  induction records generalizing listener with
  | nil => rfl
  | cons record records inductionHypothesis =>
      rw [List.flatMap_cons, List.mem_append, not_or] at notAsked
      exact (inductionHypothesis notAsked.2).trans (slots_take_of_not_asked notAsked.1)

/-- An event makes the listener handle records or messages, never both. -/
theorem handled_exclusive (listener : Listener) (event : ListenerEvent) :
    (listener.handled event).1 = [] ∨ (listener.handled event).2 = [] := by
  have packetwise : ∀ packet, (handledOf packet).1 = [] ∨ (handledOf packet).2 = [] := by
    intro packet
    cases packet with
    | snapshot records => exact Or.inr rfl
    | book msg => exact Or.inl rfl
    | heartbeat => exact Or.inl rfl
    | otherMessage => exact Or.inl rfl
    | foreign => exact Or.inl rfl
  rw [handled.eq_def]
  split
  · exact Or.inl rfl
  cases event with
  | live packet =>
      dsimp only
      split
      · exact packetwise packet
      · exact Or.inl rfl
  | replay packet => exact packetwise packet
  | timeout =>
      dsimp only
      split
      · exact Or.inl rfl
      · exact Or.inl rfl

/-- A slot that an event does not ask for stays as it is. -/
theorem slots_next_of_not_asked {listener : Listener} {event : ListenerEvent} {symbol : UInt32}
    (notAsked : symbol ∉ listener.slotIds event) :
    (listener.next event).manager.slots symbol = listener.manager.slots symbol := by
  rw [slotIds, List.mem_append, not_or] at notAsked
  rw [(listener.next_eq_afterHandling event).1, afterHandling]
  rcases listener.handled_exclusive event with noRecords | noMsgs
  · rw [noRecords]
    exact slots_foldl_dispatch_of_not_asked notAsked.2
  · rw [noMsgs]
    exact slots_foldl_take_of_not_asked notAsked.1

/-! ### Routes into the table -/

/-- The ids that have a slot. -/
def InTable (ids : List UInt32) : Prop := ∀ id ∈ ids, id ∈ symbolIds

instance decidableInTable (ids : List UInt32) : Decidable (InTable ids) := List.decidableBAll _ _

theorem inTable_append {first second : List UInt32} :
    InTable (first ++ second) ↔ InTable first ∧ InTable second := List.forall_mem_append

/-- Every route leads to a slot. -/
def RoutedInTable (listener : Listener) : Prop :=
  ∀ id symbol, listener.orderToSymbol.lookup id = some symbol → symbol ∈ symbolIds

theorem RoutedInTable.asks_iff {listener : Listener} (routed : listener.RoutedInTable)
    (msg : BookMsg) : InTable (listener.dispatchSlotIds msg) ↔ InTable msg.names := by
  have known : ∀ id, InTable (listener.orderToSymbol.lookup id).toList := by
    intro id symbol member
    exact routed id symbol (Option.mem_toList.mp member)
  have nothing : InTable [] := fun _ member => absurd member List.not_mem_nil
  cases msg with
  | newOrder msg => exact Iff.rfl
  | deleteOrder msg => exact iff_of_true (known msg.orderId) nothing
  | modifyOrder msg => exact iff_of_true (known msg.orderId) nothing
  | trade msg => exact iff_of_true (known msg.orderId) nothing

theorem RoutedInTable.dispatch {listener : Listener} (routed : listener.RoutedInTable)
    {msg : BookMsg} (named : InTable msg.names) : (listener.dispatch msg).RoutedInTable := by
  intro id symbol route
  rw [route_dispatch] at route
  split at route
  · cases msg with
    | newOrder msg =>
        cases route
        exact named _ List.mem_cons_self
    | deleteOrder msg => cases route
    | modifyOrder msg => exact routed _ symbol route
    | trade msg => exact routed _ symbol route
  · exact routed id symbol route

/-- Messages ask for slots outside the table exactly if one of them names such a slot, and routes
stay in the table until then. -/
theorem RoutedInTable.foldl_dispatch {msgs : List BookMsg} {listener : Listener}
    (routed : listener.RoutedInTable) :
    (InTable (emitted Listener.dispatch dispatchSlotIds listener msgs) ↔
        InTable (msgs.flatMap BookMsg.names)) ∧
      (InTable (msgs.flatMap BookMsg.names) →
        (msgs.foldl Listener.dispatch listener).RoutedInTable) := by
  induction msgs generalizing listener with
  | nil => exact ⟨Iff.rfl, fun _ => routed⟩
  | cons msg msgs inductionHypothesis =>
      rw [emitted_cons, List.flatMap_cons, inTable_append, inTable_append, routed.asks_iff msg]
      constructor
      · exact and_congr_right fun named => (inductionHypothesis (routed.dispatch named)).1
      · rintro ⟨named, later⟩
        exact (inductionHypothesis (routed.dispatch named)).2 later

theorem RoutedInTable.take {listener : Listener} (routed : listener.RoutedInTable)
    {record : SnapshotRecord} (named : InTable record.slotIds) :
    (listener.take record).RoutedInTable := by
  intro id symbol route
  rw [lookup_take] at route
  cases record with
  | info msg =>
      rw [routeTake] at route
      split at route
      · cases route
      · exact routed id symbol route
  | order msg =>
      rw [routeTake] at route
      split at route
      · cases route
        exact named _ List.mem_cons_self
      · exact routed id symbol route
  | other => exact routed id symbol route

theorem RoutedInTable.foldl_take {records : List SnapshotRecord} {listener : Listener}
    (routed : listener.RoutedInTable)
    (named : InTable (records.flatMap SnapshotRecord.slotIds)) :
    (records.foldl Listener.take listener).RoutedInTable := by
  induction records generalizing listener with
  | nil => exact routed
  | cons record records inductionHypothesis =>
      rw [List.flatMap_cons, inTable_append] at named
      exact inductionHypothesis (routed.take named.1) named.2

theorem RoutedInTable.slotIds_iff {listener : Listener} (routed : listener.RoutedInTable)
    (event : ListenerEvent) :
    InTable (listener.slotIds event) ↔ InTable (listener.names event) := by
  rw [slotIds, names, inTable_append, inTable_append]
  exact and_congr_right fun _ => routed.foldl_dispatch.1

theorem RoutedInTable.next {listener : Listener} (routed : listener.RoutedInTable)
    {event : ListenerEvent} (named : InTable (listener.names event)) :
    (listener.next event).RoutedInTable := by
  rw [names, inTable_append] at named
  rw [RoutedInTable, (listener.next_eq_afterHandling event).2]
  exact (routed.foldl_take named.1).foldl_dispatch.2 named.2

/-! ### Runs -/

/-- For every positions file and every run of the listener after it is loaded: `slot` is called
with ids of the table only, exactly if every line, and every SNAPSHOT_INFO and NEW_ORDER that is
handled, names a symbol of the table. -/
theorem slotIds_in_table_iff (lines : List (UInt32 × Int32)) (events : List ListenerEvent) :
    (InTable (SymbolManager.loadSlotIds lines) ∧
        Along next (fun listener event => InTable (listener.slotIds event))
          (start (SymbolManager.empty.loadPositions lines)) events) ↔
      (∀ line ∈ lines, line.1 ∈ symbolIds) ∧
        Along next (fun listener event => InTable (listener.names event))
          (start (SymbolManager.empty.loadPositions lines)) events := by
  have initial : (start (SymbolManager.empty.loadPositions lines)).RoutedInTable := by
    intro id symbol route
    cases route
  have alike := @along_congr_of_invariant _ _ Listener.next
    (fun listener event => InTable (listener.slotIds event)) RoutedInTable
    (fun listener event => InTable (listener.names event))
    (fun _ event routed asked => routed.next ((routed.slotIds_iff event).mp asked))
    (fun _ event routed => routed.slotIds_iff event) _ initial events
  rw [alike, InTable, SymbolManager.loadSlotIds, List.forall_mem_map]

/-- The first packet of the replay is an order of a symbol that is not traded. -/
def strangeOrder : ListenerEvent :=
  .replay (.book (.newOrder ⟨⟨1, .NEW_ORDER⟩, 1, 14, .BUY, 5, 100⟩))

/-- It is handed to a slot behind the end of the table; so is the position of a line that names the
symbol. -/
theorem strangeOrder_leaves_table :
    (start .empty).slotIds strangeOrder = [14] ∧
      SymbolManager.loadSlotIds [(14, 5)] = [14] ∧ (14 : UInt32) ∉ symbolIds ∧
      ¬ (∀ lines events, InTable (SymbolManager.loadSlotIds lines) ∧
        Along next (fun listener event => InTable (listener.slotIds event))
          (start (SymbolManager.empty.loadPositions lines)) events) := by
  have outside : ¬ InTable ((start .empty).slotIds strangeOrder) := by decide
  refine ⟨rfl, rfl, by decide, ?_⟩
  intro always
  exact outside (always [] [strangeOrder]).2.1

end Listener

end HftAlgorithms
