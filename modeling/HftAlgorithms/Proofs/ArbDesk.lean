/-
Module: HftAlgorithms.Proofs.ArbDesk
Purpose: The arb's own orders on the desk: what a response or a booking does to a
  position and to what is left to fill on either side of it.
Trusted boundary: none
Main exports: Desk.workingOn, Desk.Routed, Desk.Fills, Desk.FillsOwn,
  Desk.position_fill, Desk.position_book, Desk.receive_moves
-/
import HftAlgorithms.Proofs.Liquidation

namespace HftAlgorithms

open FiniteMap StateMachine

/-- The symbols that the arbs trade. -/
def arbSymbols : List UInt32 := SYM_UNDY :: DORM_IDS

namespace Desk

/-! ### What is left to fill -/

/-- What one order may still fill on a side of a symbol. -/
def sideWeight (symbol : UInt32) (side : BookSide) (_ : UInt64) (order : WorkingOrder) : Nat :=
  if order.symbol = symbol ∧ order.side.bookSide = side then order.remaining else 0

/-- The total unfilled quantity of the working orders on one side of a symbol. -/
def workingOn (desk : Desk) (symbol : UInt32) (side : BookSide) : Nat :=
  sumBy (sideWeight symbol side) desk.working

theorem workingOn_opening (bot : BotState) (symbol : UInt32) (side : BookSide) :
    (opening bot).workingOn symbol side = 0 := rfl

/-- A request adds its quantity on its own side of its symbol, and replaces whatever had its id. -/
theorem workingOn_sendOrder_le (desk : Desk) (symbol : UInt32) (side : Side) (qty : UInt32)
    (price : Int32) (other : UInt32) (otherSide : BookSide) :
    (desk.next (.sendOrder symbol side qty price)).workingOn other otherSide ≤
      desk.workingOn other otherSide +
        if symbol = other ∧ side.bookSide = otherSide then qty.toNat else 0 := by
  change sumBy _ (desk.working.insert _ _) ≤ _
  rw [sumBy_insert, Nat.add_comm]
  exact Nat.add_le_add_right (sumBy_erase_le _ _ _) _

/-- A request adds nothing anywhere else. -/
theorem workingOn_sendOrder_elsewhere (desk : Desk) {symbol : UInt32} {side : Side} {qty : UInt32}
    (price : Int32) {other : UInt32} {otherSide : BookSide}
    (elsewhere : ¬ (symbol = other ∧ side.bookSide = otherSide)) :
    (desk.next (.sendOrder symbol side qty price)).workingOn other otherSide ≤
      desk.workingOn other otherSide := by
  have grown := workingOn_sendOrder_le desk symbol side qty price other otherSide
  rwa [if_neg elsewhere, Nat.add_zero] at grown

/-- Working orders are routed as they were sent. -/
def Routed (desk : Desk) : Prop :=
  ∀ id order, desk.working.lookup id = some order →
    desk.bot.orderMap.lookup id = some (order.symbol, order.side)

theorem routed_opening (bot : BotState) : (opening bot).Routed := by
  intro id order found
  cases found

theorem Routed.sendOrder {desk : Desk} (routed : desk.Routed) (symbol : UInt32) (side : Side)
    (qty : UInt32) (price : Int32) : (desk.next (.sendOrder symbol side qty price)).Routed := by
  intro id order found
  change (desk.working.insert _ _).lookup id = some order at found
  change (desk.bot.orderMap.insert _ _).lookup id = _
  rw [lookup_insert_eq] at found ⊢
  by_cases new : id = desk.bot.nextOrderId
  · rw [if_pos new] at found ⊢
    cases found
    rfl
  · rw [if_neg new] at found ⊢
    exact routed id order found

/-- A closing fill takes its order off the desk and its route out of the map. -/
theorem Routed.fill {desk : Desk} (routed : desk.Routed) (orderId : UInt64) (qty : UInt32)
    (price : Int32) (flags : FillFlags) :
    (desk.next (.receive (.fill orderId qty price flags))).Routed := by
  intro id order found
  change (settleResponse desk.working _).lookup id = some order at found
  change (desk.bot.act _).orderMap.lookup id = _
  cases works : desk.working.lookup orderId with
  | none =>
      rw [settleResponse, works] at found
      have elsewhere : id ≠ orderId := by
        rintro rfl
        rw [works] at found
        cases found
      have route := routed id order found
      cases routedHere : desk.bot.orderMap.lookup orderId with
      | none =>
          rw [(BotState.receive_unroutedFill qty price flags routedHere).1]
          exact route
      | some here =>
          obtain ⟨-, orders, -⟩ := BotState.receive_arbFill qty price flags routedHere
          rw [orders]
          split
          · rw [lookup_erase_eq, if_neg elsewhere]
            exact route
          · exact route
  | some first =>
      have route := routed orderId first works
      obtain ⟨-, orders, -⟩ := BotState.receive_arbFill qty price flags route
      rw [settleResponse_of_lookup works] at found
      rw [orders]
      by_cases closed : flags = .CLOSED
      · rw [if_pos closed, lookup_erase_eq] at found ⊢
        by_cases same : id = orderId
        · rw [if_pos same] at found
          cases found
        · rw [if_neg same] at found ⊢
          exact routed id order found
      · rw [if_neg closed] at found ⊢
        rw [lookup_insert_eq] at found
        by_cases same : id = orderId
        · rw [if_pos same] at found
          cases found
          rw [same]
          exact route
        · rw [if_neg same] at found
          exact routed id order found

theorem Routed.next {desk : Desk} (routed : desk.Routed) (action : BotAction) :
    (desk.next action).Routed := by
  cases action with
  | sendOrder symbol side qty price => exact routed.sendOrder symbol side qty price
  | receive response =>
      cases response with
      | ack orderId => exact routed
      | reject orderId rejectReason =>
          exact fun id order found => routed id order (lookup_of_lookup_erase found)
      | fill orderId qty price flags => exact routed.fill orderId qty price flags
      | closed orderId => exact fun id order found => routed id order (lookup_of_lookup_erase found)
      | other => exact routed
  | book symbol side qty price => exact routed
  | callCreate amount result => exact routed
  | fillTimeout => exact routed
  | setArbInProgress inProgress => exact routed
  | setArbStartTime time => exact routed

/-! ### What the exchange may send -/

/-- A FILL is of an order that works, for at most what is left of it. -/
def FillsUpTo (desk : Desk) : BotAction → Prop
  | .receive (.fill orderId qty _ _) =>
      ∃ order ∈ desk.working.lookup orderId, qty.toNat ≤ order.remaining
  | _ => True

theorem fillsUpTo_of_fill {desk : Desk} {response : OeResponse}
    (own : ∀ {orderId : UInt64} {qty : UInt32} {price : Int32} {flags : FillFlags},
      response = .fill orderId qty price flags →
        ∃ order ∈ desk.working.lookup orderId, qty.toNat ≤ order.remaining) :
    desk.FillsUpTo (.receive response) := by
  cases response with
  | fill orderId qty price flags => exact own rfl
  | ack orderId => trivial
  | reject orderId rejectReason => trivial
  | closed orderId => trivial
  | other => trivial

/-- A FILL is of an order that works, for at least one lot and at most what is left of it.  It may
close the order with some of it unfilled. -/
def Fills (desk : Desk) : BotAction → Prop
  | .receive (.fill orderId qty _ _) =>
      ∃ order ∈ desk.working.lookup orderId, 0 < qty.toNat ∧ qty.toNat ≤ order.remaining
  | _ => True

instance decidableFills (desk : Desk) : ∀ action, Decidable (desk.Fills action)
  | .receive (.fill _ _ _ _) => inferInstanceAs (Decidable (∃ order ∈ _, _))
  | .receive (.ack _) | .receive (.reject _ _) | .receive (.closed _) | .receive .other
  | .sendOrder _ _ _ _ | .book _ _ _ _ | .callCreate _ _ | .fillTimeout | .setArbInProgress _
  | .setArbStartTime _ => isTrue trivial

theorem Fills.upTo {desk : Desk} {response : OeResponse} (fills : desk.Fills (.receive response)) :
    desk.FillsUpTo (.receive response) := by
  apply fillsUpTo_of_fill
  rintro orderId qty price flags rfl
  obtain ⟨order, found, -, within⟩ := fills
  exact ⟨order, found, within⟩

/-- A FILL is of an order that works, for at most what is left of it, and one that closes the order
for all of it. -/
def FillsOwn (desk : Desk) : BotAction → Prop
  | .receive (.fill orderId qty _ flags) =>
      ∃ order ∈ desk.working.lookup orderId, qty.toNat ≤ order.remaining ∧
        (flags = .CLOSED → qty.toNat = order.remaining)
  | _ => True

instance decidableFillsOwn (desk : Desk) : ∀ action, Decidable (desk.FillsOwn action)
  | .receive (.fill _ _ _ _) => inferInstanceAs (Decidable (∃ order ∈ _, _))
  | .receive (.ack _) | .receive (.reject _ _) | .receive (.closed _) | .receive .other
  | .sendOrder _ _ _ _ | .book _ _ _ _ | .callCreate _ _ | .fillTimeout | .setArbInProgress _
  | .setArbStartTime _ => isTrue trivial

theorem FillsOwn.upTo {desk : Desk} {response : OeResponse}
    (fills : desk.FillsOwn (.receive response)) : desk.FillsUpTo (.receive response) := by
  apply fillsUpTo_of_fill
  rintro orderId qty price flags rfl
  obtain ⟨order, found, within, -⟩ := fills
  exact ⟨order, found, within⟩

/-- A fill of a working order takes at least its quantity off what works on the order's side: one
that closes the order takes off all that was left of it. -/
theorem workingOn_fill {desk : Desk} {orderId : UInt64} {order : WorkingOrder}
    (found : desk.working.lookup orderId = some order) {qty : UInt32} {flags : FillFlags}
    (within : qty.toNat ≤ order.remaining) (price : Int32) (symbol : UInt32) (side : BookSide) :
    ((desk.next (.receive (.fill orderId qty price flags))).workingOn symbol side +
        if order.symbol = symbol ∧ order.side.bookSide = side then qty.toNat else 0) ≤
      desk.workingOn symbol side := by
  have sum := sumBy_of_lookup (sideWeight symbol side) found
  change sumBy _ (settleResponse desk.working _) + _ ≤ sumBy _ desk.working
  rw [sum, settleResponse_of_lookup found, sideWeight]
  by_cases closed : flags = .CLOSED
  · rw [if_pos closed]
    split <;> omega
  · rw [if_neg closed, sumBy_insert, sideWeight]
    dsimp only
    split <;> omega

/-- No response adds to what works. -/
theorem workingOn_receive_le {desk : Desk} {response : OeResponse}
    (fills : desk.FillsUpTo (.receive response)) (symbol : UInt32) (side : BookSide) :
    (desk.next (.receive response)).workingOn symbol side ≤ desk.workingOn symbol side := by
  cases response with
  | ack orderId => exact Nat.le_refl _
  | reject orderId rejectReason => exact sumBy_erase_le _ _ _
  | fill orderId qty price flags =>
      obtain ⟨order, found, within⟩ := fills
      exact (Nat.le_add_right _ _).trans (workingOn_fill found within price symbol side)
  | closed orderId => exact sumBy_erase_le _ _ _
  | other => exact Nat.le_refl _

/-- Only a fill moves a position, and one of a working order moves that of its symbol. -/
theorem position_fill {desk : Desk} (routed : desk.Routed) {orderId : UInt64}
    {order : WorkingOrder} (found : desk.working.lookup orderId = some order) (qty : UInt32)
    (price : Int32) (flags : FillFlags) (symbol : UInt32) :
    (desk.next (.receive (.fill orderId qty price flags))).position symbol =
      if symbol = order.symbol then
        (movedPosition (desk.bot.manager.getPosition order.symbol) order.side qty).toInt
      else desk.position symbol := by
  obtain ⟨manager, -, -⟩ := BotState.receive_arbFill qty price flags (routed orderId order found)
  change ((desk.bot.act _).manager.getPosition symbol).toInt = _
  rw [manager, SymbolManager.getPosition_onFill]
  split
  · rfl
  · rfl

/-- A booking that does not wrap moves its own position by its quantity. -/
theorem position_book {desk : Desk} {symbol : UInt32} {side : Side} {qty : UInt32}
    (low : -2 ^ 31 ≤ exactMove (desk.position symbol) side qty.toNat)
    (high : exactMove (desk.position symbol) side qty.toNat < 2 ^ 31) (price : Int32)
    (other : UInt32) :
    (desk.next (.book symbol side qty price)).position other =
      if other = symbol then exactMove (desk.position symbol) side qty.toNat
      else desk.position other := by
  change ((desk.bot.manager.onFill symbol side qty price).getPosition other).toInt = _
  rw [SymbolManager.getPosition_onFill]
  split
  · exact toInt_movedPosition low high
  · rfl

/-- A position goes up and down by no more than is taken off what works on either side. -/
def Moves (desk after : Desk) (symbol : UInt32) : Prop :=
  ∃ bought sold : Nat, after.position symbol = desk.position symbol + bought - sold ∧
    after.workingOn symbol .bid + bought ≤ desk.workingOn symbol .bid ∧
    after.workingOn symbol .ask + sold ≤ desk.workingOn symbol .ask

/-- A response moves a position so, as long as what works does not wrap it. -/
theorem receive_moves {desk : Desk} (routed : desk.Routed) {response : OeResponse}
    (fills : desk.FillsUpTo (.receive response)) {symbol : UInt32}
    (low : -2 ^ 31 ≤ desk.position symbol - desk.workingOn symbol .ask)
    (high : desk.position symbol + desk.workingOn symbol .bid < 2 ^ 31) :
    desk.Moves (desk.next (.receive response)) symbol := by
  have fewer := fun side => workingOn_receive_le fills symbol side
  have still : (desk.next (.receive response)).position symbol = desk.position symbol →
      desk.Moves (desk.next (.receive response)) symbol := by
    intro same
    exact ⟨0, 0, by rw [same]; omega, fewer .bid, fewer .ask⟩
  cases response with
  | ack orderId => exact still rfl
  | reject orderId rejectReason => exact still rfl
  | closed orderId => exact still rfl
  | other => exact still rfl
  | fill orderId qty price flags =>
      obtain ⟨order, found, within⟩ := fills
      have moved := position_fill routed found qty price flags symbol
      have bids := @workingOn_fill _ _ _ found _ flags within price symbol .bid
      have asks := @workingOn_fill _ _ _ found _ flags within price symbol .ask
      by_cases own : symbol = order.symbol
      · subst own
        rw [if_pos rfl] at moved
        by_cases buy : order.side = .BUY
        · have here : exactMove (desk.position order.symbol) order.side qty.toNat =
              desk.position order.symbol + qty.toNat := by rw [exactMove, if_pos buy]
          have side : order.side.bookSide = .bid := by rw [buy]; rfl
          rw [if_pos ⟨rfl, side⟩] at bids
          rw [if_neg fun both => absurd (side.symm.trans both.2) (by decide)] at asks
          rw [toInt_movedPosition] at moved
          · exact ⟨qty.toNat, 0, by rw [moved]; exact here.trans (by omega), bids, asks⟩
          · change _ ≤ exactMove (desk.position order.symbol) order.side qty.toNat
            omega
          · change exactMove (desk.position order.symbol) order.side qty.toNat < _
            omega
        · have here : exactMove (desk.position order.symbol) order.side qty.toNat =
              desk.position order.symbol - qty.toNat := by rw [exactMove, if_neg buy]
          have side : order.side.bookSide = .ask := by
            cases sort : order.side with
            | BUY => exact absurd sort buy
            | SELL => rfl
            | invalid byte => rfl
          rw [if_neg fun both => absurd (side.symm.trans both.2) (by decide)] at bids
          rw [if_pos ⟨rfl, side⟩] at asks
          rw [toInt_movedPosition] at moved
          · exact ⟨0, qty.toNat, by rw [moved]; exact here.trans (by omega), bids, asks⟩
          · change _ ≤ exactMove (desk.position order.symbol) order.side qty.toNat
            omega
          · change exactMove (desk.position order.symbol) order.side qty.toNat < _
            omega
      · rw [if_neg own] at moved
        exact still moved

end Desk

end HftAlgorithms
