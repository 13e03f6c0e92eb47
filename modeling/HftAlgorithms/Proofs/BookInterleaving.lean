/-
Module: HftAlgorithms.Proofs.BookInterleaving
Purpose: A book does not depend on how the messages about different orders are
  interleaved: each order's entry is moved by its own messages, and the levels
  are a function of the orders.
Trusted boundary: none
Main exports: entryStepIn, OrderBook.lookup_next_in, OrderBook.sound_foldl,
  OrderBook.sameBook_of_interleaved
-/
import HftAlgorithms.Lib.Interleaving
import HftAlgorithms.Proofs.BookLevels

namespace HftAlgorithms

open FiniteMap Interleaving

/-! ### One order among others -/

/-- An order's entry in the book of a symbol after a message about it.  An order of another symbol,
which `handle_new_order` stores as well, is never touched again. -/
def entryStepIn (symbol : UInt32) : Option OrderInfo → BookMsg → Option OrderInfo
  | some info, msg => if info.symbol = symbol then info.rest msg else some info
  | none, msg => entryStep none msg

theorem entryStepIn_of_own {symbol : UInt32} {entry : Option OrderInfo} {msg : BookMsg}
    (own : ∀ info, entry = some info → info.symbol = symbol) :
    entryStepIn symbol entry msg = entryStep entry msg := by
  cases entry with
  | none => rfl
  | some info => exact if_pos (own info rfl)

namespace OrderBook

/-- A message about an order of another symbol is not taken. -/
theorem not_takes_of_foreign {book : OrderBook} {msg : BookMsg} {info : OrderInfo}
    (found : book.orders.lookup msg.orderId = some info) (foreign : info.symbol ≠ book.symbol) :
    ¬ book.Takes msg := by
  have unknown := not_knows_of_foreign found foreign
  cases msg with
  | newOrder msg =>
      intro accepts
      have absent := accepts.2.1
      rw [show book.orders.lookup msg.orderId = some info from found] at absent
      cases absent
  | deleteOrder msg => exact unknown
  | modifyOrder msg => exact unknown
  | trade msg => exact unknown

/-- Whatever orders a book holds, a message moves the entry of its own order only. -/
theorem lookup_next_in (book : OrderBook) (msg : BookMsg) (id : UInt64) :
    (book.next msg).orders.lookup id =
      if msg.orderId = id then entryStepIn book.symbol (book.orders.lookup id) msg
      else book.orders.lookup id := by
  by_cases taken : ∃ info, book.orders.lookup msg.orderId = some info ∧ info.symbol ≠ book.symbol
  · obtain ⟨info, found, foreign⟩ := taken
    rw [next_of_not_takes (not_takes_of_foreign found foreign)]
    by_cases here : msg.orderId = id
    · subst here
      rw [if_pos rfl, found, entryStepIn, if_neg foreign]
    · rw [if_neg here]
  · have own : ∀ info, book.orders.lookup msg.orderId = some info → info.symbol = book.symbol :=
      fun info found => not_not.mp fun foreign => taken ⟨info, found, foreign⟩
    rw [lookup_next own]
    by_cases here : msg.orderId = id
    · subst here
      rw [if_pos rfl, if_pos rfl, entryStepIn_of_own own]
    · rw [if_neg here, if_neg fun same => here same.symm]

/-- Books that have seen the same messages about every order hold the same orders. -/
theorem orders_eq_of_sameRows {first second : List BookMsg}
    (same : SameRows BookMsg.orderId first second) (book : OrderBook) :
    (first.foldl next book).orders = (second.foldl next book).orders := by
  apply Finmap.ext_lookup
  intro id
  have keeps : ∀ (state : OrderBook) (msg : BookMsg), state.symbol = book.symbol →
      (state.next msg).symbol = book.symbol :=
    fun state msg symbolIs => (symbol_next state msg).trans symbolIs
  have alone : ∀ (state : OrderBook) (msg : BookMsg) (id : UInt64), state.symbol = book.symbol →
      (state.next msg).orders.lookup id =
        if msg.orderId = id then entryStepIn book.symbol (state.orders.lookup id) msg
        else state.orders.lookup id := by
    intro state msg id symbolIs
    rw [lookup_next_in, symbolIs]
  exact @SameRows.part_foldl _ _ _ _ _ _ _ (fun state id => state.orders.lookup id) _ _ _ _ same
    keeps alone book rfl id

/-! ### Levels -/

/-- Messages whose quantities fit together leave a book whose levels its orders determine. -/
theorem sound_foldl {msgs : List BookMsg} {book : OrderBook} (sound : book.Sound)
    (leaves : ∀ msg ∈ msgs, msg.LeavesQuantity)
    (total : book.totalQuantity + (msgs.map BookMsg.brings).sum < 2 ^ 32) :
    (msgs.foldl next book).Sound := by
  induction msgs generalizing book with
  | nil => exact sound
  | cons msg msgs inductionHypothesis =>
      rw [List.map_cons, List.sum_cons] at total
      have brought := book.totalQuantity_next_le msg
      have fits : (book.next msg).SumsFit := by
        apply sumsFit_of_total
        change (book.next msg).totalQuantity < 2 ^ 32
        omega
      exact inductionHypothesis (sound.next (leaves msg List.mem_cons_self) fits)
        (fun later member => leaves later (List.mem_cons_of_mem _ member)) (by omega)

/-- Two message sequences with the same messages about every order in the same order, whose
modifies leave a quantity and whose quantities fit together in 32 bits, make the same book out of
an empty one, with the same top. -/
theorem sameBook_of_interleaved (symbol : UInt32) (first second : List BookMsg)
    (same : ∀ id, about id first = about id second)
    (leaves : ∀ msg ∈ first, msg.LeavesQuantity)
    (total : (first.map BookMsg.brings).sum < 2 ^ 32) :
    (first.foldl next (empty symbol)).SameBook (second.foldl next (empty symbol)) ∧
      (first.foldl next (empty symbol)).getBestBidPrice =
        (second.foldl next (empty symbol)).getBestBidPrice ∧
      (first.foldl next (empty symbol)).getBestBidQty =
        (second.foldl next (empty symbol)).getBestBidQty ∧
      (first.foldl next (empty symbol)).getBestAskPrice =
        (second.foldl next (empty symbol)).getBestAskPrice ∧
      (first.foldl next (empty symbol)).getBestAskQty =
        (second.foldl next (empty symbol)).getBestAskQty := by
  have rows : SameRows BookMsg.orderId first second := same
  have nothing : (empty symbol).totalQuantity = 0 := rfl
  have sound := sound_foldl (sound_empty symbol) leaves (by rwa [nothing, Nat.zero_add])
  have soundToo : (second.foldl next (empty symbol)).Sound := by
    apply sound_foldl (sound_empty symbol)
    · exact fun msg member => leaves msg (rows.perm.mem_iff.mpr member)
    · have totals := (rows.perm.map BookMsg.brings).sum_eq
      rwa [nothing, Nat.zero_add, ← totals]
  have books := sound.sameBook soundToo (orders_eq_of_sameRows rows _)
  exact ⟨books, books.tops⟩

/-- The messages of `flipAndOvertrade`, those about the second order first. -/
def overtradeAndFlip : List BookMsg :=
  [.newOrder ⟨⟨2, .NEW_ORDER⟩, 11, 3, .BUY, 4, 100⟩,
   .deleteOrder ⟨⟨5, .DELETE_ORDER⟩, 12⟩,
   .trade ⟨⟨4, .TRADE⟩, 11, 9⟩,
   .newOrder ⟨⟨1, .NEW_ORDER⟩, 10, 3, .BUY, 5, 100⟩,
   .modifyOrder ⟨⟨3, .MODIFY_ORDER⟩, 10, .SELL, 7, 105⟩]

theorem sameBook_of_interleaved_flipAndOvertrade :
    (flipAndOvertrade.foldl next (empty 3)).SameBook (overtradeAndFlip.foldl next (empty 3)) := by
  have rows : SameRows BookMsg.orderId flipAndOvertrade overtradeAndFlip := by decide
  have leaves : ∀ msg ∈ flipAndOvertrade, msg.LeavesQuantity := by
    simp [flipAndOvertrade, BookMsg.LeavesQuantity]
  exact (sameBook_of_interleaved 3 _ _ rows leaves (by decide)).1

end OrderBook

end HftAlgorithms
