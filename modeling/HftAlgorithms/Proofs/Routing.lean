/-
Module: HftAlgorithms.Proofs.Routing
Purpose: Routing by order id brings every message to the book of its order's
  symbol, so a listener's books keep each order as the messages about it tell.
Trusted boundary: none
Main exports: Listener.book, Listener.Coherent, Listener.Coherent.foldl_dispatch,
  ExchangeHistory, Listener.replayAll, Listener.lookup_replayAll
-/
import HftAlgorithms.Lib.OverlapLog
import HftAlgorithms.MarketData.Listener
import HftAlgorithms.Proofs.OrderLife

namespace HftAlgorithms

open FiniteMap OverlapLog

namespace Listener

def book (listener : Listener) (symbol : UInt32) : OrderBook :=
  (listener.manager.slots symbol).book

/-! ### One message -/

theorem book_onBookMsg (manager : SymbolManager) (id : UInt32) (msg : BookMsg) (symbol : UInt32) :
    ((manager.onBookMsg id msg).slots symbol).book =
      if symbol = id then (manager.slots id).book.next msg else (manager.slots symbol).book := by
  by_cases own : symbol = id
  · subst own
    simp [SymbolManager.onBookMsg, SymbolManager.setSlot, SymbolSlot.flushTopOfBook]
  · simp [SymbolManager.onBookMsg, SymbolManager.setSlot, own]

/-- The symbol whose book a message goes to, if any. -/
def target (listener : Listener) : BookMsg → Option UInt32
  | .newOrder msg => some msg.symbol
  | .deleteOrder msg => listener.orderToSymbol.lookup msg.orderId
  | .modifyOrder msg => listener.orderToSymbol.lookup msg.orderId
  | .trade msg => listener.orderToSymbol.lookup msg.orderId

/-- The route of a message's order after the message. -/
def routeStep (route : Option UInt32) : BookMsg → Option UInt32
  | .newOrder msg => some msg.symbol
  | .deleteOrder _ => none
  | .modifyOrder _ => route
  | .trade _ => route

/-- The routes after a message that is routed to `symbol`. -/
def reroute (routes : FiniteMap UInt64 UInt32) (symbol : UInt32) :
    BookMsg → FiniteMap UInt64 UInt32
  | .newOrder msg => routes.insert msg.orderId symbol
  | .deleteOrder msg => routes.erase msg.orderId
  | .modifyOrder _ => routes
  | .trade _ => routes

/-- Every message goes to its symbol's book, or nowhere. -/
theorem dispatch_eq (listener : Listener) (msg : BookMsg) :
    listener.dispatch msg =
      match listener.target msg with
      | some symbol =>
          { listener with
            manager := listener.manager.onBookMsg symbol msg
            orderToSymbol := reroute listener.orderToSymbol symbol msg }
      | none => listener := by
  cases msg with
  | newOrder msg => rfl
  | deleteOrder msg =>
      rw [dispatch, dispatchDeleteOrder, target]
      cases listener.orderToSymbol.lookup msg.orderId <;> rfl
  | modifyOrder msg =>
      rw [dispatch, dispatchModifyOrder, target]
      cases listener.orderToSymbol.lookup msg.orderId <;> rfl
  | trade msg =>
      rw [dispatch, dispatchTrade, target]
      cases listener.orderToSymbol.lookup msg.orderId <;> rfl

theorem book_dispatch (listener : Listener) (msg : BookMsg) (symbol : UInt32) :
    (listener.dispatch msg).book symbol =
      if listener.target msg = some symbol then (listener.book symbol).next msg
      else listener.book symbol := by
  rw [book, dispatch_eq]
  cases listener.target msg with
  | none => rfl
  | some routed =>
      dsimp only
      rw [book_onBookMsg]
      by_cases own : symbol = routed
      · subst own
        rw [if_pos rfl, if_pos rfl, book]
      · rw [if_neg own, if_neg fun same => own (Option.some.inj same).symm, book]

theorem route_dispatch (listener : Listener) (msg : BookMsg) (id : UInt64) :
    (listener.dispatch msg).orderToSymbol.lookup id =
      if id = msg.orderId then routeStep (listener.orderToSymbol.lookup msg.orderId) msg
      else listener.orderToSymbol.lookup id := by
  cases msg with
  | newOrder msg => exact lookup_insert_eq _ _ _ _
  | deleteOrder msg =>
      rw [dispatch, dispatchDeleteOrder]
      split
      · rename_i unrouted
        have kept := lookup_eq_ite listener.orderToSymbol msg.orderId id
        rw [unrouted] at kept
        exact kept
      · exact lookup_erase_eq _ _ _
  | modifyOrder msg =>
      rw [dispatch, dispatchModifyOrder]
      split <;> exact lookup_eq_ite _ _ _
  | trade msg =>
      rw [dispatch, dispatchTrade]
      split <;> exact lookup_eq_ite _ _ _

/-! ### Coherent routing -/

/-- The books of `symbols` hold orders of their own symbol only, each routed to its book;
`symbolOf` is the symbol that an id is announced for. -/
def Coherent (symbolOf : UInt64 → UInt32) (symbols : UInt32 → Prop) (listener : Listener) : Prop :=
  ∀ symbol, symbols symbol → (listener.book symbol).symbol = symbol ∧
    ∀ id info, (listener.book symbol).orders.lookup id = some info →
      info.symbol = symbol ∧ symbolOf id = symbol ∧
        listener.orderToSymbol.lookup id = some symbol

/-- A message announces no order for another symbol than `symbolOf` says. -/
def Announces (symbolOf : UInt64 → UInt32) : BookMsg → Prop
  | .newOrder msg => symbolOf msg.orderId = msg.symbol
  | _ => True

section Coherent

variable {symbolOf : UInt64 → UInt32} {symbols : UInt32 → Prop} {listener : Listener}

/-- What a coherent book holds under a message's id, it holds as one of its own orders. -/
theorem Coherent.own (coherent : listener.Coherent symbolOf symbols) {symbol : UInt32}
    (covered : symbols symbol) {id : UInt64} :
    ∀ info, (listener.book symbol).orders.lookup id = some info →
      info.symbol = (listener.book symbol).symbol := by
  intro info found
  rw [(coherent symbol covered).1]
  exact ((coherent symbol covered).2 id info found).1

/-- A message that does not reach the book of its order's symbol announces nothing, and the book
does not hold the order. -/
theorem Coherent.unreached (coherent : listener.Coherent symbolOf symbols) {msg : BookMsg}
    (announces : Announces symbolOf msg) {symbol : UInt32} (covered : symbols symbol)
    (here : symbolOf msg.orderId = symbol) (unrouted : listener.target msg ≠ some symbol) :
    msg.isNew = false ∧ (listener.book symbol).orders.lookup msg.orderId = none := by
  have absent : listener.orderToSymbol.lookup msg.orderId ≠ some symbol →
      (listener.book symbol).orders.lookup msg.orderId = none := by
    intro elsewhere
    cases found : (listener.book symbol).orders.lookup msg.orderId with
    | none => rfl
    | some info => exact absurd ((coherent symbol covered).2 _ info found).2.2 elsewhere
  cases msg with
  | newOrder msg => exact absurd (congrArg some (announces.symm.trans here)) unrouted
  | deleteOrder msg => exact ⟨rfl, absent unrouted⟩
  | modifyOrder msg => exact ⟨rfl, absent unrouted⟩
  | trade msg => exact ⟨rfl, absent unrouted⟩

/-- A coherent listener keeps every order as the messages about it tell, whatever routing does
with them. -/
theorem Coherent.lookup_dispatch (coherent : listener.Coherent symbolOf symbols) {msg : BookMsg}
    (announces : Announces symbolOf msg) {symbol : UInt32} (covered : symbols symbol)
    {id : UInt64} (here : symbolOf id = symbol) :
    ((listener.dispatch msg).book symbol).orders.lookup id =
      if id = msg.orderId then entryStep ((listener.book symbol).orders.lookup id) msg
      else (listener.book symbol).orders.lookup id := by
  rw [book_dispatch]
  by_cases routed : listener.target msg = some symbol
  · rw [if_pos routed, OrderBook.lookup_next (coherent.own covered)]
    split
    · rename_i same
      rw [same]
    · rfl
  · rw [if_neg routed]
    split
    · rename_i same
      subst same
      obtain ⟨notNew, absent⟩ := coherent.unreached announces covered here routed
      rw [absent, entryStep_none notNew]
    · rfl

/-- A message keeps the listener coherent. -/
theorem Coherent.dispatch (coherent : listener.Coherent symbolOf symbols) {msg : BookMsg}
    (announces : Announces symbolOf msg) : (listener.dispatch msg).Coherent symbolOf symbols := by
  intro symbol covered
  obtain ⟨ownSymbol, entries⟩ := coherent symbol covered
  rw [book_dispatch]
  by_cases routed : listener.target msg = some symbol
  · rw [if_pos routed, OrderBook.symbol_next]
    refine ⟨ownSymbol, ?_⟩
    intro id info found
    rw [OrderBook.lookup_next (coherent.own covered)] at found
    rw [route_dispatch]
    by_cases same : id = msg.orderId
    · rw [if_pos same] at found ⊢
      rw [same]
      rcases entryStep_eq_some found with ⟨old, rested, sameSymbol⟩ | ⟨-, new, rfl, rfl⟩
      · obtain ⟨symbolIs, announced, route⟩ := entries _ old rested
        refine ⟨sameSymbol.trans symbolIs, announced, ?_⟩
        cases msg with
        | newOrder msg => exact routed
        | deleteOrder msg =>
            rw [rested] at found
            cases found
        | modifyOrder msg => exact route
        | trade msg => exact route
      · have here : new.symbol = symbol := Option.some.inj routed
        exact ⟨here, announces.trans here, routed⟩
    · rw [if_neg same] at found ⊢
      exact entries id info found
  · rw [if_neg routed]
    refine ⟨ownSymbol, ?_⟩
    intro id info found
    obtain ⟨symbolIs, announced, route⟩ := entries id info found
    refine ⟨symbolIs, announced, ?_⟩
    rw [route_dispatch]
    by_cases same : id = msg.orderId
    · rw [same] at announced found
      have absent := (coherent.unreached announces covered announced routed).2
      rw [found] at absent
      cases absent
    · rw [if_neg same]
      exact route

/-- A run keeps the listener coherent, and each order as the messages about it tell. -/
theorem Coherent.foldl_dispatch {msgs : List BookMsg}
    (coherent : listener.Coherent symbolOf symbols)
    (announces : ∀ msg ∈ msgs, Announces symbolOf msg) :
    (msgs.foldl Listener.dispatch listener).Coherent symbolOf symbols ∧
      ∀ symbol, symbols symbol → ∀ id, symbolOf id = symbol →
        ((msgs.foldl Listener.dispatch listener).book symbol).orders.lookup id =
          (about id msgs).foldl entryStep ((listener.book symbol).orders.lookup id) := by
  induction msgs generalizing listener with
  | nil => exact ⟨coherent, fun _ _ _ _ => rfl⟩
  | cons msg msgs inductionHypothesis =>
      have here := announces msg List.mem_cons_self
      obtain ⟨later, entries⟩ := inductionHypothesis (coherent.dispatch here)
        fun other member => announces other (List.mem_cons_of_mem _ member)
      refine ⟨later, ?_⟩
      intro symbol covered id own
      rw [List.foldl_cons, entries symbol covered id own,
        coherent.lookup_dispatch here covered own, about_cons]
      by_cases same : id = msg.orderId
      · rw [if_pos same, if_pos same.symm, List.foldl_cons]
      · rw [if_neg same, if_neg fun equal => same equal.symm]

end Coherent

/-! ### Histories -/

/-- The books after the messages, from empty. -/
def replayAll (history : List BookMsg) : Listener :=
  history.foldl Listener.dispatch (start .empty)

end Listener

/-- The feed's sequence number, without its width. -/
def BookMsg.seqKey (msg : BookMsg) : Nat := msg.seqNum.toNat

/-- Sequence numbers increase, no id is announced twice, and every other message is about an
order announced before. -/
structure ExchangeHistory (history : List BookMsg) : Prop where
  ordered : Ordered BookMsg.seqKey history
  newFirst : ∀ msg ∈ history, NewFirst (about msg.orderId history)

/-- The symbol an order is announced for. -/
def symbolOf (history : List BookMsg) (id : UInt64) : UInt32 :=
  match (about id history).head? with
  | some (.newOrder msg) => msg.symbol
  | _ => 0

namespace ExchangeHistory

variable {history : List BookMsg}

theorem newFirst_about (exchange : ExchangeHistory history) (id : UInt64) :
    NewFirst (about id history) := by
  cases mentioned : about id history with
  | nil => trivial
  | cons msg msgs =>
      have member : msg ∈ about id history := by
        rw [mentioned]
        exact List.mem_cons_self
      obtain ⟨within, same⟩ := List.mem_filter.mp member
      have first := exchange.newFirst msg within
      rwa [of_decide_eq_true same, mentioned] at first

theorem announces (exchange : ExchangeHistory history) :
    ∀ msg ∈ history, Listener.Announces (symbolOf history) msg := by
  intro msg member
  cases msg with
  | deleteOrder msg => trivial
  | modifyOrder msg => trivial
  | trade msg => trivial
  | newOrder msg =>
      have within : .newOrder msg ∈ about msg.orderId history :=
        List.mem_filter.mpr ⟨member, decide_eq_true rfl⟩
      have first := exchange.newFirst_about msg.orderId
      rw [Listener.Announces, symbolOf]
      cases mentioned : about msg.orderId history with
      | nil =>
          rw [mentioned] at within
          exact absurd within List.not_mem_nil
      | cons head rest =>
          rw [mentioned] at first within
          rcases List.mem_cons.mp within with same | later
          · rw [← same]
            rfl
          · exact absurd (first.2 _ later) (by simp [BookMsg.isNew])

end ExchangeHistory

namespace Listener

theorem coherent_start (symbolOf : UInt64 → UInt32) (symbols : UInt32 → Prop) :
    (start .empty).Coherent symbolOf symbols := by
  intro symbol _
  refine ⟨rfl, ?_⟩
  intro id info found
  cases found

/-- What a history makes of the orders: each as the messages about it tell, in the book of its
symbol and in no other. -/
theorem lookup_replayAll {history : List BookMsg} {symbolOf : UInt64 → UInt32}
    (announces : ∀ msg ∈ history, Announces symbolOf msg) (symbol : UInt32) (id : UInt64) :
    ((replayAll history).book symbol).orders.lookup id =
      if symbolOf id = symbol then (about id history).foldl entryStep none else none := by
  obtain ⟨coherent, entries⟩ :=
    (coherent_start symbolOf fun _ => True).foldl_dispatch announces
  split
  · rename_i own
    exact entries symbol trivial id own
  · rename_i other
    cases found : ((replayAll history).book symbol).orders.lookup id with
    | none => rfl
    | some info => exact absurd ((coherent symbol trivial).2 id info found).2.1 other

end Listener

end HftAlgorithms
