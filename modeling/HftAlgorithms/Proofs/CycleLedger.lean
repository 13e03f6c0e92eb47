/-
Module: HftAlgorithms.Proofs.CycleLedger
Purpose: The ledger of an arb cycle: the exchange fills booked so far beside the
  desk, and the balance of the symbol manager against them while no position is
  short.
Trusted boundary: none
Main exports: BotState.exchangeFills, Ledger, Ledger.next, Desk.Roomy,
  Ledger.Kept, Ledger.Kept.receive
-/
import HftAlgorithms.Proofs.ArbDesk
import HftAlgorithms.Proofs.ArbSnapshots
import HftAlgorithms.Proofs.RealizedPnl

namespace HftAlgorithms

open FiniteMap StateMachine

/-! ### The calls of `on_fill` -/

namespace BotState

/-- The `on_fill` call that a response leads to: one for each fill of a routed order. -/
def exchangeFills (bot : BotState) : BotAction → List Fill
  | .receive (.fill orderId qty price _) =>
      match bot.orderMap.lookup orderId with
      | some route => [⟨route.1, route.2, qty, price⟩]
      | none =>
          match bot.mmOrderMap.lookup orderId with
          | some route => [⟨route.1, route.2, qty, price⟩]
          | none => []
  | _ => []

/-- The `on_fill` call that mirrors a part of `/create` or `/redeem`. -/
def syntheticFills : BotAction → List Fill
  | .book symbol side qty price => [⟨symbol, side, qty, price⟩]
  | _ => []

/-- There are no other calls. -/
theorem manager_act (bot : BotState) (action : BotAction) :
    (bot.act action).manager =
      (bot.exchangeFills action ++ syntheticFills action).foldl SymbolManager.fill
        bot.manager := by
  cases action with
  | receive response =>
      cases response with
      | fill orderId qty price flags =>
          change _ = (bot.exchangeFills _ ++ []).foldl _ _
          rw [exchangeFills, List.append_nil]
          cases routed : bot.orderMap.lookup orderId with
          | some route => exact (receive_arbFill qty price flags routed).1
          | none =>
              cases mmRouted : bot.mmOrderMap.lookup orderId with
              | some route => exact (receive_mmFill qty price flags routed mmRouted).1
              | none => exact (receive_strangeFill qty price flags routed mmRouted).1
      | ack orderId => rfl
      | reject orderId rejectReason => rfl
      | closed orderId => rfl
      | other => rfl
  | book symbol side qty price => rfl
  | sendOrder symbol side qty price => rfl
  | callCreate amount result => rfl
  | fillTimeout => rfl
  | setArbInProgress inProgress => rfl
  | setArbStartTime time => rfl

end BotState

/-! ### The ledger -/

/-- The desk, and the exchange fills that have been booked. -/
structure Ledger where
  desk : Desk
  exchange : List Fill

namespace Ledger

def opening (bot : BotState) : Ledger := ⟨.opening bot, []⟩

def next (ledger : Ledger) (action : BotAction) : Ledger :=
  ⟨ledger.desk.next action, ledger.exchange ++ ledger.desk.bot.exchangeFills action⟩

def bot (ledger : Ledger) : BotState := ledger.desk.bot

def FillsOwn (ledger : Ledger) (action : BotAction) : Prop := ledger.desk.FillsOwn action

theorem exchange_foldl (log : List BotAction) (ledger : Ledger) :
    (log.foldl next ledger).exchange =
      ledger.exchange ++ emitted BotState.act BotState.exchangeFills ledger.bot log := by
  induction log generalizing ledger with
  | nil => exact (List.append_nil _).symm
  | cons action log inductionHypothesis =>
      rw [List.foldl_cons, inductionHypothesis, emitted_cons, ← List.append_assoc]
      rfl

theorem along_fillsOwn_iff (bot : BotState) (log : List BotAction) :
    Along next FillsOwn (opening bot) log ↔
      Along Desk.next Desk.FillsOwn (Desk.opening bot) log :=
  @along_project _ _ Desk.next Desk.FillsOwn _ next desk (fun _ _ => rfl) (opening bot) log

end Ledger

/-! ### Room to fill -/

namespace Desk

/-- Whatever of the working orders fills, no position wraps and none but that of UNDY becomes short;
UNDY falls by at most `owed` below flat, and nothing that works brings it back. -/
structure Roomy (owed : Nat) (desk : Desk) : Prop where
  routed : desk.Routed
  known : ∀ id order, desk.working.lookup id = some order →
    order.symbol ∈ symbolIds ∧ (order.side = .BUY ∨ order.side = .SELL)
  above : ∀ symbol ∈ symbolIds, desk.position symbol + desk.workingOn symbol .bid ≤ 2 ^ 30
  below : ∀ symbol ∈ symbolIds, symbol ≠ SYM_UNDY →
    0 ≤ desk.position symbol - desk.workingOn symbol .ask
  undy : -(owed : Int) ≤ desk.position SYM_UNDY - desk.workingOn SYM_UNDY .ask
  small : owed ≤ 2 ^ 30
  oneWay : owed = 0 ∨ desk.workingOn SYM_UNDY .bid = 0

theorem undy_mem_symbolIds : SYM_UNDY ∈ symbolIds := by decide

variable {owed : Nat} {desk : Desk}

/-- What works leads no position further down than `owed`. -/
theorem Roomy.low (roomy : desk.Roomy owed) {symbol : UInt32} (member : symbol ∈ symbolIds) :
    -(owed : Int) ≤ desk.position symbol - desk.workingOn symbol .ask := by
  by_cases own : symbol = SYM_UNDY
  · rw [own]
    exact roomy.undy
  · have positive := roomy.below symbol member own
    omega

theorem Roomy.moves (roomy : desk.Roomy owed) {response : OeResponse}
    (fills : desk.FillsOwn (.receive response)) {symbol : UInt32} (member : symbol ∈ symbolIds) :
    desk.Moves (desk.next (.receive response)) symbol := by
  have above := roomy.above symbol member
  have low := roomy.low member
  have small := roomy.small
  exact receive_moves roomy.routed fills.upTo (by omega) (by omega)

/-- Where a fill of a working order takes its position: only UNDY can go short. -/
theorem Roomy.fill_bounds (roomy : desk.Roomy owed) {orderId : UInt64} {order : WorkingOrder}
    (found : desk.working.lookup orderId = some order) {qty : UInt32}
    (within : qty.toNat ≤ order.remaining) (held : 0 ≤ desk.position order.symbol) :
    -(owed : Int) ≤ exactMove (desk.position order.symbol) order.side qty.toNat ∧
      exactMove (desk.position order.symbol) order.side qty.toNat ≤ 2 ^ 30 ∧
      (order.symbol ≠ SYM_UNDY →
        0 ≤ exactMove (desk.position order.symbol) order.side qty.toNat) := by
  obtain ⟨member, twoSided⟩ := roomy.known orderId order found
  have weight := weight_le_sumBy (sideWeight order.symbol order.side.bookSide) found
  rw [sideWeight, if_pos ⟨rfl, rfl⟩] at weight
  change order.remaining ≤ desk.workingOn order.symbol order.side.bookSide at weight
  have above := roomy.above order.symbol member
  have low := roomy.low member
  rcases twoSided with buy | sell
  · rw [buy] at weight
    change order.remaining ≤ desk.workingOn order.symbol .bid at weight
    rw [buy, exactMove, if_pos rfl]
    omega
  · rw [sell] at weight
    change order.remaining ≤ desk.workingOn order.symbol .ask at weight
    rw [sell, exactMove, if_neg (by decide)]
    refine ⟨by omega, by omega, fun elsewhere => ?_⟩
    have below := roomy.below order.symbol member elsewhere
    omega

/-- What works after a response worked before it, on the same side of the same symbol. -/
theorem exists_of_settled {working : FiniteMap UInt64 WorkingOrder} {response : OeResponse}
    {id : UInt64} {order : WorkingOrder}
    (found : (settleResponse working response).lookup id = some order) :
    ∃ earlier, working.lookup id = some earlier ∧ order.symbol = earlier.symbol ∧
      order.side = earlier.side := by
  cases response with
  | ack orderId => exact ⟨order, found, rfl, rfl⟩
  | other => exact ⟨order, found, rfl, rfl⟩
  | reject orderId rejectReason => exact ⟨order, lookup_of_lookup_erase found, rfl, rfl⟩
  | closed orderId => exact ⟨order, lookup_of_lookup_erase found, rfl, rfl⟩
  | fill orderId qty price flags =>
      cases works : working.lookup orderId with
      | none =>
          rw [settleResponse, works] at found
          exact ⟨order, found, rfl, rfl⟩
      | some first =>
          rw [settleResponse_of_lookup works] at found
          split at found
          · exact ⟨order, lookup_of_lookup_erase found, rfl, rfl⟩
          · rw [lookup_insert_eq] at found
            split at found
            · rename_i same
              cases found
              exact ⟨first, by rw [same, works], rfl, rfl⟩
            · exact ⟨order, found, rfl, rfl⟩

theorem Roomy.receive (roomy : desk.Roomy owed) {response : OeResponse}
    (fills : desk.FillsOwn (.receive response)) :
    (desk.next (.receive response)).Roomy owed := by
  have moves := fun symbol member => @Roomy.moves owed desk roomy response fills symbol member
  refine ⟨roomy.routed.next _, ?_, ?_, ?_, ?_, roomy.small, ?_⟩
  · intro id order found
    obtain ⟨earlier, works, symbol, side⟩ := exists_of_settled found
    rw [symbol, side]
    exact roomy.known id earlier works
  · intro symbol member
    obtain ⟨bought, sold, moved, bids, -⟩ := moves symbol member
    have above := roomy.above symbol member
    omega
  · intro symbol member elsewhere
    obtain ⟨bought, sold, moved, -, asks⟩ := moves symbol member
    have below := roomy.below symbol member elsewhere
    omega
  · obtain ⟨bought, sold, moved, -, asks⟩ := moves SYM_UNDY undy_mem_symbolIds
    have undy := roomy.undy
    omega
  · obtain ⟨bought, sold, -, bids, -⟩ := moves SYM_UNDY undy_mem_symbolIds
    exact roomy.oneWay.imp_right fun none => by omega

/-- A new order is known. -/
theorem known_sendOrder {symbol : UInt32} {side : Side} {qty : UInt32} {price : Int32}
    (known : ∀ id order, desk.working.lookup id = some order →
      order.symbol ∈ symbolIds ∧ (order.side = .BUY ∨ order.side = .SELL))
    (member : symbol ∈ symbolIds) (twoSided : side = .BUY ∨ side = .SELL) :
    ∀ id order, (desk.next (.sendOrder symbol side qty price)).working.lookup id = some order →
      order.symbol ∈ symbolIds ∧ (order.side = .BUY ∨ order.side = .SELL) := by
  intro id order found
  change (desk.working.insert _ _).lookup id = some order at found
  rw [lookup_insert_eq] at found
  split at found
  · cases found
    exact ⟨member, twoSided⟩
  · exact known id order found

theorem Roomy.buy (roomy : desk.Roomy owed) {symbol : UInt32} {qty : UInt32}
    (member : symbol ∈ symbolIds) (oneWay : owed = 0 ∨ symbol ≠ SYM_UNDY)
    (fits : desk.position symbol + desk.workingOn symbol .bid + qty.toNat ≤ 2 ^ 30)
    (price : Int32) : (desk.next (.sendOrder symbol .BUY qty price)).Roomy owed := by
  have grown := workingOn_sendOrder_le desk symbol .BUY qty price
  have asks := fun other => @workingOn_sendOrder_elsewhere desk symbol .BUY qty price other .ask
    fun both => absurd both.2 (by decide)
  refine ⟨roomy.routed.next _, known_sendOrder roomy.known member (Or.inl rfl), ?_, ?_, ?_,
    roomy.small, ?_⟩
  · intro other known
    have more := grown other .bid
    have above := roomy.above other known
    change desk.position other + _ ≤ _
    split at more
    · rename_i own
      rw [← own.1] at above more ⊢
      omega
    · omega
  · intro other known elsewhere
    have below := roomy.below other known elsewhere
    have more := asks other
    change 0 ≤ desk.position other - _
    omega
  · have undy := roomy.undy
    have more := asks SYM_UNDY
    change _ ≤ desk.position SYM_UNDY - _
    omega
  · rcases oneWay with flat | elsewhere
    · exact Or.inl flat
    · refine roomy.oneWay.imp_right fun none => ?_
      have more := grown SYM_UNDY .bid
      rw [if_neg fun both => elsewhere both.1] at more
      omega

theorem Roomy.sell (roomy : desk.Roomy owed) {owedAfter : Nat} {symbol : UInt32} {qty : UInt32}
    (member : symbol ∈ symbolIds) (grows : owed ≤ owedAfter) (small : owedAfter ≤ 2 ^ 30)
    (oneWay : owedAfter = 0 ∨ desk.workingOn SYM_UNDY .bid = 0)
    (covered : symbol ≠ SYM_UNDY →
      0 ≤ desk.position symbol - desk.workingOn symbol .ask - qty.toNat)
    (undy : symbol = SYM_UNDY →
      -(owedAfter : Int) ≤ desk.position symbol - desk.workingOn symbol .ask - qty.toNat)
    (price : Int32) : (desk.next (.sendOrder symbol .SELL qty price)).Roomy owedAfter := by
  have grown := workingOn_sendOrder_le desk symbol .SELL qty price
  have bids := fun other => @workingOn_sendOrder_elsewhere desk symbol .SELL qty price other .bid
    fun both => absurd both.2 (by decide)
  refine ⟨roomy.routed.next _, known_sendOrder roomy.known member (Or.inr rfl), ?_, ?_, ?_,
    small, ?_⟩
  · intro other known
    have above := roomy.above other known
    have more := bids other
    change desk.position other + _ ≤ _
    omega
  · intro other known elsewhere
    have below := roomy.below other known elsewhere
    have more := grown other .ask
    change 0 ≤ desk.position other - _
    split at more
    · rename_i own
      have enough := covered (own.1 ▸ elsewhere)
      rw [← own.1] at more ⊢
      omega
    · omega
  · have before := roomy.undy
    have more := grown SYM_UNDY .ask
    change _ ≤ desk.position SYM_UNDY - _
    split at more
    · rename_i own
      have enough := undy own.1
      rw [← own.1] at more ⊢
      omega
    · omega
  · refine oneWay.imp_right fun none => ?_
    have more := bids SYM_UNDY
    omega

theorem Roomy.book (roomy : desk.Roomy owed) {symbol : UInt32} {side : Side} {qty : UInt32}
    (fits : exactMove (desk.position symbol) side qty.toNat + desk.workingOn symbol .bid ≤ 2 ^ 30)
    (covered : 0 ≤ exactMove (desk.position symbol) side qty.toNat - desk.workingOn symbol .ask)
    (price : Int32) : (desk.next (.book symbol side qty price)).Roomy owed := by
  have moved := @position_book desk symbol side qty (by omega) (by omega) price
  refine ⟨roomy.routed.next _, roomy.known, ?_, ?_, ?_, roomy.small, roomy.oneWay⟩
  · intro other member
    have above := roomy.above other member
    change _ + (desk.workingOn other .bid : Int) ≤ _
    rw [moved]
    split
    · rename_i own
      rw [own]
      exact fits
    · exact above
  · intro other member elsewhere
    have below := roomy.below other member elsewhere
    change 0 ≤ _ - (desk.workingOn other .ask : Int)
    rw [moved]
    split
    · rename_i own
      rw [own]
      exact covered
    · exact below
  · have undy := roomy.undy
    change _ ≤ _ - (desk.workingOn SYM_UNDY .ask : Int)
    rw [moved]
    split
    · rename_i own
      rw [own]
      omega
    · exact undy

end Desk

/-! ### The books -/

namespace Ledger

/-- No position is short, and the implied cash has moved by what the exchange fills were booked at
and by `synthetic`. -/
structure Balanced (start : SymbolManager) (synthetic : ℚ) (ledger : Ledger) : Prop where
  long : ledger.desk.bot.manager.Long
  balance : ledger.desk.bot.manager.cashBalance =
    start.cashBalance + bookedFlow ledger.exchange + synthetic

/-- UNDY is short, and nothing that works brings it back. -/
def Oversold (ledger : Ledger) : Prop :=
  ledger.desk.position SYM_UNDY < 0 ∧ ledger.desk.workingOn SYM_UNDY .bid = 0

/-- The desk has room, and the books balance unless UNDY has been oversold. -/
structure Kept (start : SymbolManager) (owed : Nat) (synthetic : ℚ) (ledger : Ledger) : Prop where
  roomy : ledger.desk.Roomy owed
  books : ledger.Oversold ∨ ledger.Balanced start synthetic

variable {start : SymbolManager} {owed : Nat} {synthetic : ℚ} {ledger : Ledger}

theorem Kept.balanced (kept : ledger.Kept start owed synthetic)
    (notShort : 0 ≤ ledger.desk.position SYM_UNDY) : ledger.Balanced start synthetic := by
  rcases kept.books with oversold | balanced
  · exact absurd oversold.1 (Int.not_lt.mpr notShort)
  · exact balanced

/-- An action without `on_fill` calls leaves the books alone. -/
theorem Balanced.silent (balanced : ledger.Balanced start synthetic) {action : BotAction}
    (noExchange : ledger.desk.bot.exchangeFills action = [])
    (noSynthetic : BotState.syntheticFills action = []) :
    (ledger.next action).Balanced start synthetic := by
  have manager : (ledger.next action).desk.bot.manager = ledger.desk.bot.manager := by
    have calls := ledger.desk.bot.manager_act action
    rw [noExchange, noSynthetic] at calls
    exact calls
  have exchange : (ledger.next action).exchange = ledger.exchange := by
    change ledger.exchange ++ _ = _
    rw [noExchange, List.append_nil]
  refine ⟨?_, ?_⟩
  · rw [manager]
    exact balanced.long
  · rw [manager, exchange]
    exact balanced.balance

/-- A fill of a working order is booked, unless it takes UNDY short. -/
theorem Balanced.fill (balanced : ledger.Balanced start synthetic)
    (roomy : ledger.desk.Roomy owed) {orderId : UInt64} {order : WorkingOrder}
    (found : ledger.desk.working.lookup orderId = some order) {qty : UInt32}
    (within : qty.toNat ≤ order.remaining) (price : Int32) (flags : FillFlags) :
    (ledger.next (.receive (.fill orderId qty price flags))).desk.position SYM_UNDY < 0 ∧
        owed ≠ 0 ∨
      (ledger.next (.receive (.fill orderId qty price flags))).Balanced start synthetic := by
  obtain ⟨member, twoSided⟩ := roomy.known orderId order found
  have route := roomy.routed orderId order found
  have fills : ledger.desk.bot.exchangeFills (.receive (.fill orderId qty price flags)) =
      [⟨order.symbol, order.side, qty, price⟩] := by
    rw [BotState.exchangeFills, route]
  have manager : (ledger.next (.receive (.fill orderId qty price flags))).desk.bot.manager =
      ledger.desk.bot.manager.fill ⟨order.symbol, order.side, qty, price⟩ := by
    have calls := ledger.desk.bot.manager_act (.receive (.fill orderId qty price flags))
    rw [fills] at calls
    exact calls
  have held := SymbolManager.toInt_nonneg_of_le (balanced.long order.symbol member)
  obtain ⟨low, high, elsewhere⟩ := roomy.fill_bounds found within held
  have small := roomy.small
  by_cases short : exactMove (ledger.desk.position order.symbol) order.side qty.toNat < 0
  · left
    have isUndy : order.symbol = SYM_UNDY := by
      by_contra other
      exact absurd short (not_lt.mpr (elsewhere other))
    refine ⟨?_, by omega⟩
    have moved := Desk.position_fill roomy.routed found qty price flags SYM_UNDY
    rw [if_pos isUndy.symm, toInt_movedPosition] at moved
    · change (ledger.desk.next _).position SYM_UNDY < 0
      rw [moved]
      exact short
    · change _ ≤ exactMove (ledger.desk.position order.symbol) order.side qty.toNat
      omega
    · change exactMove (ledger.desk.position order.symbol) order.side qty.toNat < _
      omega
  · right
    have stays : ledger.desk.bot.manager.StaysLong ⟨order.symbol, order.side, qty, price⟩ := by
      change 0 ≤ exactMove (ledger.desk.position order.symbol) order.side qty.toNat ∧
        exactMove (ledger.desk.position order.symbol) order.side qty.toNat < 2 ^ 31
      omega
    refine ⟨?_, ?_⟩
    · rw [manager]
      exact SymbolManager.long_fill balanced.long stays
    · have exchange : (ledger.next (.receive (.fill orderId qty price flags))).exchange =
          ledger.exchange ++ [⟨order.symbol, order.side, qty, price⟩] :=
        congrArg (ledger.exchange ++ ·) fills
      have booked := SymbolManager.cashBalance_fill_booked balanced.long member twoSided stays
      rw [manager, exchange, booked, balanced.balance, bookedFlow, bookedFlow, List.map_append,
        List.sum_append, List.map_singleton, List.sum_singleton]
      ring

/-- Every response keeps the books. -/
theorem Kept.receive (kept : ledger.Kept start owed synthetic) {response : OeResponse}
    (fills : ledger.FillsOwn (.receive response)) :
    (ledger.next (.receive response)).Kept start owed synthetic := by
  refine ⟨kept.roomy.receive fills, ?_⟩
  obtain ⟨bought, sold, moved, bids, -⟩ := kept.roomy.moves fills Desk.undy_mem_symbolIds
  rcases kept.books with ⟨short, none⟩ | balanced
  · left
    constructor
    · change (ledger.desk.next (.receive response)).position SYM_UNDY < 0
      omega
    · change (ledger.desk.next (.receive response)).workingOn SYM_UNDY .bid = 0
      omega
  · cases response with
    | ack orderId => exact Or.inr (balanced.silent rfl rfl)
    | reject orderId rejectReason => exact Or.inr (balanced.silent rfl rfl)
    | closed orderId => exact Or.inr (balanced.silent rfl rfl)
    | other => exact Or.inr (balanced.silent rfl rfl)
    | fill orderId qty price flags =>
        obtain ⟨order, found, within, -⟩ := fills
        rcases balanced.fill kept.roomy found within price flags with ⟨short, indebted⟩ | booked
        · left
          have none := kept.roomy.oneWay.resolve_left indebted
          refine ⟨short, ?_⟩
          change (ledger.desk.next (.receive _)).workingOn SYM_UNDY .bid = 0
          omega
        · exact Or.inr booked

/-- An order moves nothing yet. -/
theorem Kept.sendOrder (kept : ledger.Kept start owed synthetic) {owedAfter : Nat}
    {symbol : UInt32} {side : Side} {qty : UInt32} {price : Int32}
    (roomy : (ledger.desk.next (.sendOrder symbol side qty price)).Roomy owedAfter)
    (oneWay : ¬ (symbol = SYM_UNDY ∧ side = .BUY)) :
    (ledger.next (.sendOrder symbol side qty price)).Kept start owedAfter synthetic := by
  refine ⟨roomy, ?_⟩
  rcases kept.books with ⟨short, none⟩ | balanced
  · left
    refine ⟨short, Nat.le_zero.mp ((Desk.workingOn_sendOrder_elsewhere ledger.desk price ?_).trans
      none.le)⟩
    rintro ⟨isUndy, isBid⟩
    refine oneWay ⟨isUndy, ?_⟩
    cases side with
    | BUY => rfl
    | SELL => cases isBid
    | invalid byte => cases isBid
  · exact Or.inr (balanced.silent rfl rfl)

/-- A booking within what is held adds what it is booked at. -/
theorem Kept.book (kept : ledger.Kept start owed synthetic)
    (notShort : 0 ≤ ledger.desk.position SYM_UNDY) {symbol : UInt32} {side : Side} {qty : UInt32}
    (member : symbol ∈ symbolIds) (twoSided : side = .BUY ∨ side = .SELL)
    (fits : exactMove (ledger.desk.position symbol) side qty.toNat +
      ledger.desk.workingOn symbol .bid ≤ 2 ^ 30)
    (covered : 0 ≤ exactMove (ledger.desk.position symbol) side qty.toNat -
      ledger.desk.workingOn symbol .ask) (price : Int32) :
    (ledger.next (.book symbol side qty price)).Kept start owed
      (synthetic + Fill.booked ⟨symbol, side, qty, price⟩) := by
  have balanced := kept.balanced notShort
  have stays : ledger.desk.bot.manager.StaysLong ⟨symbol, side, qty, price⟩ := by
    change 0 ≤ exactMove (ledger.desk.position symbol) side qty.toNat ∧
      exactMove (ledger.desk.position symbol) side qty.toNat < 2 ^ 31
    omega
  have booked := SymbolManager.cashBalance_fill_booked balanced.long member twoSided stays
  have manager : (ledger.next (.book symbol side qty price)).desk.bot.manager =
      ledger.desk.bot.manager.fill ⟨symbol, side, qty, price⟩ := rfl
  have exchange : (ledger.next (.book symbol side qty price)).exchange = ledger.exchange :=
    List.append_nil ledger.exchange
  refine ⟨kept.roomy.book fits covered price, Or.inr ⟨?_, ?_⟩⟩
  · rw [manager]
    exact SymbolManager.long_fill balanced.long stays
  · rw [manager, exchange, booked, balanced.balance]
    ring

/-- An action that touches neither the orders nor the manager. -/
theorem Kept.idle (kept : ledger.Kept start owed synthetic) {action : BotAction}
    (working : (ledger.desk.next action).working = ledger.desk.working)
    (manager : (ledger.desk.bot.act action).manager = ledger.desk.bot.manager)
    (noExchange : ledger.desk.bot.exchangeFills action = [])
    (noSynthetic : BotState.syntheticFills action = []) :
    (ledger.next action).Kept start owed synthetic := by
  have positions : ∀ symbol,
      (ledger.next action).desk.position symbol = ledger.desk.position symbol :=
    fun symbol => congrArg (fun manager => (manager.getPosition symbol).toInt) manager
  have works : ∀ symbol side,
      (ledger.next action).desk.workingOn symbol side = ledger.desk.workingOn symbol side :=
    fun symbol side => congrArg (sumBy (Desk.sideWeight symbol side)) working
  refine ⟨⟨kept.roomy.routed.next action, ?_, ?_, ?_, ?_, kept.roomy.small, ?_⟩, ?_⟩
  · intro id order found
    exact kept.roomy.known id order (working ▸ found)
  · intro symbol member
    rw [positions, works]
    exact kept.roomy.above symbol member
  · intro symbol member elsewhere
    rw [positions, works]
    exact kept.roomy.below symbol member elsewhere
  · rw [positions, works]
    exact kept.roomy.undy
  · rw [works]
    exact kept.roomy.oneWay
  · rcases kept.books with ⟨short, none⟩ | balanced
    · exact Or.inl ⟨(positions SYM_UNDY).trans_lt short, (works SYM_UNDY .bid).trans none⟩
    · exact Or.inr (balanced.silent noExchange noSynthetic)

end Ledger

end HftAlgorithms
