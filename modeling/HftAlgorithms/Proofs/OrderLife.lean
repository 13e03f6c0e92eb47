/-
Module: HftAlgorithms.Proofs.OrderLife
Purpose: What a message does to a book, and that a book keeps each order as the
  messages about it tell.
Trusted boundary: none
Main exports: OrderInfo.Storable, OrderInfo.rest, entryStep, OrderBook.Effect,
  OrderBook.effect_next, OrderBook.lookup_next, about, NewFirst
-/
import HftAlgorithms.Lib.Interleaving
import HftAlgorithms.MarketData.OrderBook
import Mathlib.Data.List.Basic

namespace HftAlgorithms

open FiniteMap

/-! ### One order -/

/-- What `handle_new_order` asks of an order besides its id. -/
def OrderInfo.Storable (info : OrderInfo) : Prop :=
  (info.side = .BUY ∨ info.side = .SELL) ∧ info.quantity ≠ 0 ∧ 0 ≤ info.price

instance decidableStorable (info : OrderInfo) : Decidable info.Storable :=
  inferInstanceAs (Decidable (_ ∧ _))

/-- A resting order after a message about it.  A second NEW_ORDER is a duplicate. -/
def OrderInfo.rest (info : OrderInfo) : BookMsg → Option OrderInfo
  | .newOrder _ => some info
  | .deleteOrder _ => none
  | .modifyOrder msg => some (msg.change info)
  | .trade msg => if msg.quantity ≥ info.quantity then none else some (info.reduced msg.quantity)

/-- An order's entry after a message about it. -/
def entryStep : Option OrderInfo → BookMsg → Option OrderInfo
  | some info, msg => info.rest msg
  | none, .newOrder msg =>
      if msg.header.msgType = .NEW_ORDER ∧ msg.info.Storable then some msg.info else none
  | none, .deleteOrder _ => none
  | none, .modifyOrder _ => none
  | none, .trade _ => none

/-! ### Books keep orders so -/

namespace OrderBook

@[simp] theorem orders_storeOrder (book : OrderBook) (id : UInt64) (info : OrderInfo) :
    (book.storeOrder id info).orders = book.orders.insert id info := by
  simp [storeOrder, addToPriceLevel]

@[simp] theorem orders_dropOrder (book : OrderBook) (id : UInt64) (info : OrderInfo) :
    (book.dropOrder id info).1.orders = book.orders.erase id := by
  simp [dropOrder, removeFromPriceLevel]

/-- What makes `handle_new_order` store the order. -/
def Accepts (book : OrderBook) (msg : NewOrder) : Prop :=
  msg.header.msgType = .NEW_ORDER ∧ book.orders.lookup msg.orderId = none ∧ msg.info.Storable

theorem handleNewOrder_of_accepts {book : OrderBook} {msg : NewOrder}
    (accepts : book.Accepts msg) :
    (book.handleNewOrder msg).1 =
      { book.storeOrder msg.orderId msg.info with lastSeqNum := msg.header.seqNum } := by
  obtain ⟨type, fresh, side, quantity, price⟩ := accepts
  have validSide : ¬ (msg.side ≠ .BUY ∧ msg.side ≠ .SELL) := by
    rintro ⟨notBuy, notSell⟩
    exact side.elim notBuy notSell
  have nonzero : ¬ msg.quantity = 0 := quantity
  have nonnegative : ¬ msg.price < 0 := Int32.not_lt.mpr price
  rw [handleNewOrder, if_neg (not_not_intro type), if_neg validSide, if_neg (by simp [fresh]),
    if_neg nonzero, if_neg nonnegative]

theorem handleNewOrder_of_not_accepts {book : OrderBook} {msg : NewOrder}
    (refuses : ¬ book.Accepts msg) : (book.handleNewOrder msg).1 = book := by
  unfold handleNewOrder
  split
  · rfl
  rename_i type
  split
  · rfl
  rename_i side
  split
  · rfl
  rename_i fresh
  split
  · rfl
  rename_i quantity
  split
  · rfl
  rename_i price
  refine absurd ⟨not_not.mp type, by simpa using fresh, ?_, quantity, Int32.not_lt.mp price⟩ refuses
  by_cases buy : msg.side = .BUY
  · exact Or.inl buy
  · exact Or.inr (not_not.mp fun notSell => side ⟨buy, notSell⟩)

/-- An order of the book's own symbol rests under the id. -/
def Knows (book : OrderBook) (id : UInt64) : Prop :=
  ∃ info, book.orders.lookup id = some info ∧ info.symbol = book.symbol

/-- The message changes the book. -/
def Takes (book : OrderBook) : BookMsg → Prop
  | .newOrder msg => book.Accepts msg
  | .deleteOrder msg => book.Knows msg.orderId
  | .modifyOrder msg => book.Knows msg.orderId
  | .trade msg => book.Knows msg.orderId

/-- What a message does to a book. -/
inductive Effect (book : OrderBook) : BookMsg → OrderBook → Prop where
  | ignored (msg : BookMsg) (ignores : ¬ book.Takes msg) : Effect book msg book
  | stored (msg : NewOrder) (accepts : book.Accepts msg) : Effect book (.newOrder msg)
      { book.storeOrder msg.orderId msg.info with lastSeqNum := msg.header.seqNum }
  | dropped (msg : BookMsg) (info : OrderInfo) (seqNum : UInt32)
      (found : book.orders.lookup msg.orderId = some info) (ends : info.rest msg = none) :
      Effect book msg { (book.dropOrder msg.orderId info).1 with lastSeqNum := seqNum }
  | replaced (msg : ModifyOrder) (info : OrderInfo)
      (found : book.orders.lookup msg.orderId = some info) : Effect book (.modifyOrder msg)
        { (book.removeFromPriceLevel info.side info.price info.quantity).1.storeOrder
            msg.orderId (msg.change info) with lastSeqNum := msg.header.seqNum }
  | reduced (msg : Trade) (info : OrderInfo)
      (found : book.orders.lookup msg.orderId = some info) (le : msg.quantity ≤ info.quantity) :
      Effect book (.trade msg)
        { (book.removeFromPriceLevel info.side info.price msg.quantity).1 with
          orders :=
            if info.quantity - msg.quantity = 0 then book.orders.erase msg.orderId
            else book.orders.insert msg.orderId (info.reduced msg.quantity)
          lastSeqNum := msg.header.seqNum }

theorem not_knows_of_none {book : OrderBook} {id : UInt64}
    (unknown : book.orders.lookup id = none) : ¬ book.Knows id := by
  rintro ⟨info, found, -⟩
  rw [unknown] at found
  cases found

theorem not_knows_of_foreign {book : OrderBook} {id : UInt64} {info : OrderInfo}
    (found : book.orders.lookup id = some info) (foreign : info.symbol ≠ book.symbol) :
    ¬ book.Knows id := by
  rintro ⟨other, foundToo, own⟩
  rw [found] at foundToo
  cases foundToo
  exact foreign own

theorem effect_next (book : OrderBook) (msg : BookMsg) : book.Effect msg (book.next msg) := by
  cases msg with
  | newOrder msg =>
      rw [next, handle]
      by_cases accepts : book.Accepts msg
      · rw [handleNewOrder_of_accepts accepts]
        exact .stored msg accepts
      · rw [handleNewOrder_of_not_accepts accepts]
        exact .ignored _ accepts
  | deleteOrder msg =>
      rw [next, handle, handleDeleteOrder]
      cases found : book.orders.lookup msg.orderId with
      | none => exact .ignored _ (not_knows_of_none found)
      | some info =>
          dsimp only
          split
          · rename_i foreign
            exact .ignored _ (not_knows_of_foreign found foreign)
          · exact .dropped (.deleteOrder msg) info msg.header.seqNum found rfl
  | modifyOrder msg =>
      rw [next, handle, handleModifyOrder]
      cases found : book.orders.lookup msg.orderId with
      | none => exact .ignored _ (not_knows_of_none found)
      | some info =>
          dsimp only
          split
          · rename_i foreign
            exact .ignored _ (not_knows_of_foreign found foreign)
          · exact .replaced msg info found
  | trade msg =>
      rw [next, handle, handleTrade]
      cases found : book.orders.lookup msg.orderId with
      | none => exact .ignored _ (not_knows_of_none found)
      | some info =>
          dsimp only
          split
          · rename_i foreign
            exact .ignored _ (not_knows_of_foreign found foreign)
          · split
            · rename_i exceeds
              exact .dropped (.trade msg) info (book.dropOrder msg.orderId info).1.lastSeqNum
                found (if_pos (UInt32.le_of_lt exceeds))
            · rename_i within
              have effect := Effect.reduced msg info found (UInt32.not_lt.mp within)
              rw [removeFromPriceLevel, orders_setLevels]
              exact effect

/-- A message that a book does not take leaves it as it is. -/
theorem next_of_not_takes {book : OrderBook} {msg : BookMsg} (ignores : ¬ book.Takes msg) :
    book.next msg = book := by
  have foreign : ∀ {info : OrderInfo}, ¬ book.Knows msg.orderId →
      book.orders.lookup msg.orderId = some info → info.symbol ≠ book.symbol :=
    fun unknown found own => unknown ⟨_, found, own⟩
  cases msg with
  | newOrder msg => exact handleNewOrder_of_not_accepts ignores
  | deleteOrder msg =>
      rw [next, handle, handleDeleteOrder]
      split
      · rfl
      · rename_i info found
        rw [if_pos (foreign ignores found)]
  | modifyOrder msg =>
      rw [next, handle, handleModifyOrder]
      split
      · rfl
      · rename_i info found
        rw [if_pos (foreign ignores found)]
  | trade msg =>
      rw [next, handle, handleTrade]
      split
      · rfl
      · rename_i info found
        rw [if_pos (foreign ignores found)]

/-- No handler changes which symbol the book is for. -/
theorem symbol_next (book : OrderBook) (msg : BookMsg) : (book.next msg).symbol = book.symbol := by
  have effect := book.effect_next msg
  generalize book.next msg = after at effect ⊢
  cases effect with
  | ignored _ _ => rfl
  | stored accepts => simp [storeOrder, addToPriceLevel]
  | dropped _ info seqNum found _ => simp [dropOrder, removeFromPriceLevel]
  | replaced msg info found => simp [storeOrder, addToPriceLevel, removeFromPriceLevel]
  | reduced msg info found le => simp [removeFromPriceLevel]

/-- What a message that a book ignores leaves as it is, it leaves so in the order's story too. -/
theorem entryStep_of_ignored {book : OrderBook} {msg : BookMsg} (ignores : ¬ book.Takes msg)
    (own : ∀ info, book.orders.lookup msg.orderId = some info → info.symbol = book.symbol) :
    entryStep (book.orders.lookup msg.orderId) msg = book.orders.lookup msg.orderId := by
  cases found : book.orders.lookup msg.orderId with
  | none =>
      cases msg with
      | newOrder msg => exact if_neg fun both => ignores ⟨both.1, found, both.2⟩
      | deleteOrder msg => rfl
      | modifyOrder msg => rfl
      | trade msg => rfl
  | some info =>
      cases msg with
      | newOrder msg => rfl
      | deleteOrder msg => exact absurd ⟨info, found, own info found⟩ ignores
      | modifyOrder msg => exact absurd ⟨info, found, own info found⟩ ignores
      | trade msg => exact absurd ⟨info, found, own info found⟩ ignores

/-- A trade that leaves nothing is one of the whole order. -/
theorem sub_eq_zero_iff_ge {quantity traded : UInt32} (le : traded ≤ quantity) :
    quantity - traded = 0 ↔ traded ≥ quantity := by
  have left := UInt32.toNat_sub_of_le _ _ le
  rw [← UInt32.toNat_inj, left, UInt32.toNat_zero, ge_iff_le, UInt32.le_iff_toNat_le]
  exact Nat.sub_eq_zero_iff_le

/-- A book keeps every order as the messages about it tell, if what it holds under the message's
id is an order of its own symbol. -/
theorem lookup_next {book : OrderBook} {msg : BookMsg}
    (own : ∀ info, book.orders.lookup msg.orderId = some info → info.symbol = book.symbol)
    (id : UInt64) :
    (book.next msg).orders.lookup id =
      if id = msg.orderId then entryStep (book.orders.lookup msg.orderId) msg
      else book.orders.lookup id := by
  have effect := book.effect_next msg
  generalize book.next msg = after at effect ⊢
  cases effect with
  | ignored _ ignores =>
      rw [entryStep_of_ignored ignores own]
      exact lookup_eq_ite _ _ _
  | stored msg accepts =>
      have stored : entryStep none (.newOrder msg) = some msg.info :=
        if_pos ⟨accepts.1, accepts.2.2⟩
      change (book.storeOrder msg.orderId msg.info).orders.lookup id = if id = msg.orderId then
        entryStep (book.orders.lookup msg.orderId) _ else _
      rw [orders_storeOrder, lookup_insert_eq, accepts.2.1, stored]
  | dropped _ info seqNum found ends =>
      change (book.dropOrder msg.orderId info).1.orders.lookup id = _
      rw [orders_dropOrder, lookup_erase_eq, found, entryStep, ends]
  | replaced msg info found =>
      change (storeOrder _ _ _).orders.lookup id = if id = msg.orderId then
        entryStep (book.orders.lookup msg.orderId) _ else _
      rw [orders_storeOrder, lookup_insert_eq, removeFromPriceLevel, orders_setLevels, found]
      rfl
  | reduced msg info found le =>
      change (if info.quantity - msg.quantity = 0 then book.orders.erase msg.orderId
        else book.orders.insert msg.orderId (info.reduced msg.quantity)).lookup id =
          if id = msg.orderId then entryStep (book.orders.lookup msg.orderId) _ else _
      rw [found, entryStep, OrderInfo.rest]
      by_cases finished : msg.quantity ≥ info.quantity
      · rw [if_pos ((sub_eq_zero_iff_ge le).mpr finished), if_pos finished, lookup_erase_eq]
      · rw [if_neg fun zero => finished ((sub_eq_zero_iff_ge le).mp zero), if_neg finished,
          lookup_insert_eq]

end OrderBook

/-! ### Where entries come from -/

/-- A NEW_ORDER message. -/
def BookMsg.isNew : BookMsg → Bool
  | .newOrder _ => true
  | _ => false

/-- Nothing but a NEW_ORDER makes an entry. -/
theorem entryStep_none {msg : BookMsg} (notNew : msg.isNew = false) :
    entryStep none msg = none := by
  cases msg with
  | newOrder msg => cases notNew
  | deleteOrder msg => rfl
  | modifyOrder msg => rfl
  | trade msg => rfl

/-- An entry is the one before with its symbol kept, or the one a NEW_ORDER makes. -/
theorem entryStep_eq_some {entry : Option OrderInfo} {msg : BookMsg} {info : OrderInfo}
    (made : entryStep entry msg = some info) :
    (∃ old, entry = some old ∧ info.symbol = old.symbol) ∨
      (entry = none ∧ ∃ new, msg = .newOrder new ∧ info = new.info) := by
  cases entry with
  | some old =>
      refine Or.inl ⟨old, rfl, ?_⟩
      cases msg with
      | newOrder msg =>
          cases made
          rfl
      | deleteOrder msg => cases made
      | modifyOrder msg =>
          cases made
          rfl
      | trade msg =>
          rw [entryStep, OrderInfo.rest] at made
          split at made
          · cases made
          · cases made
            rfl
  | none =>
      cases msg with
      | newOrder msg =>
          rw [entryStep] at made
          split at made
          · exact Or.inr ⟨rfl, msg, rfl, (Option.some.inj made).symm⟩
          · cases made
      | deleteOrder msg => cases made
      | modifyOrder msg => cases made
      | trade msg => cases made

/-! ### The messages about one order -/

/-- The messages about one order. -/
def about (id : UInt64) (msgs : List BookMsg) : List BookMsg :=
  msgs.filter fun msg => msg.orderId = id

theorem about_cons (id : UInt64) (msg : BookMsg) (msgs : List BookMsg) :
    about id (msg :: msgs) =
      if msg.orderId = id then msg :: about id msgs else about id msgs :=
  Interleaving.row_cons id msg msgs

/-- Only the first message about an order is a NEW_ORDER. -/
def NewFirst : List BookMsg → Prop
  | [] => True
  | first :: rest => first.isNew = true ∧ ∀ msg ∈ rest, msg.isNew = false

instance decidableNewFirst : ∀ msgs, Decidable (NewFirst msgs)
  | [] => isTrue trivial
  | first :: rest =>
      inferInstanceAs (Decidable (first.isNew = true ∧ ∀ msg ∈ rest, msg.isNew = false))

end HftAlgorithms
