/-
Module: HftAlgorithms.Proofs.MarketMakerLimit
Purpose: When the BLUE position stays within the market maker's limit.  Every order
  is sized by the position, and by no order that still works; what bounds the
  position is that no order is filled once its id is forgotten, and that a bid
  leaves room for the flatten order.
Trusted boundary: none
Main exports: MmDesk, MmDesk.Honest, MmDesk.Remembers, MmDesk.Bounded,
  LoopRun.Keeps, LoopRun.position_within_limit
-/
import HftAlgorithms.Lib.Assured
import HftAlgorithms.Proofs.Liquidation
import HftAlgorithms.Proofs.LoopRuns

namespace HftAlgorithms

open FiniteMap StateMachine

/-! ### The market maker's orders on the exchange -/

/-- The loop and its working orders, as the responses it has read account for them. -/
structure MmDesk where
  state : MmState
  working : FiniteMap UInt64 WorkingOrder

namespace MmDesk

/-- Before the first order. -/
def opening (state : MmState) : MmDesk := ⟨state, ∅⟩

def next (desk : MmDesk) (action : LoopAction) : MmDesk where
  state := desk.state.act action
  working :=
    match action with
    | .sendMmOrder quote qty _ =>
        desk.working.insert (desk.state.mmOrderId + 1) ⟨SYM_BLUE, quote.side, qty.toNat⟩
    | .bot (.sendOrder symbol side qty _) =>
        desk.working.insert desk.state.bot.nextOrderId ⟨symbol, side, qty.toNat⟩
    | .bot (.receive response) => settleResponse desk.working response
    | _ => desk.working

/-- The BLUE position. -/
def position (desk : MmDesk) : Int := (desk.state.bot.manager.getPosition SYM_BLUE).toInt

/-- What is left of the order with this id. -/
def remaining (desk : MmDesk) (id : UInt64) : Nat :=
  ((desk.working.lookup id).map WorkingOrder.remaining).getD 0

/-- What is left of the order that a quote remembers. -/
def openQty (desk : MmDesk) (quote : MmQuote) : Nat := desk.remaining (desk.state.quoteId quote)

/-- The position is within the limit either way. -/
def Within (mmLimit : Int32) (desk : MmDesk) : Prop :=
  -mmLimit.toInt ≤ desk.position ∧ desk.position ≤ mmLimit.toInt

/-! ### What is assumed of a step -/

/-- The exchange fills an order only while it works, and by at most what is left of it. -/
def Honest (desk : MmDesk) : LoopAction → Prop
  | .bot (.receive (.fill orderId qty _ _)) =>
      ∃ order ∈ desk.working.lookup orderId, qty.toNat ≤ order.remaining
  | _ => True

/-- A FILL is of an order whose id the market maker still has; a bid is sent only when it leaves
room for what is left of the flatten order; and the ids have not run out. -/
def Remembers (mmLimit : Int32) (desk : MmDesk) : LoopAction → Prop
  | .bot (.receive (.fill orderId _ _ _)) => ∃ quote, desk.state.quoteId quote = orderId
  | .sendMmOrder quote _ _ =>
      desk.state.mmOrderId.toNat + 1 < 2 ^ 64 ∧
        (quote = .bid → desk.position + desk.openQty .flatten < mmLimit.toInt)
  | _ => True

instance decidableWithin (mmLimit : Int32) (desk : MmDesk) : Decidable (desk.Within mmLimit) :=
  inferInstanceAs (Decidable (_ ∧ _))

instance decidableHonest (desk : MmDesk) : ∀ action, Decidable (desk.Honest action)
  | .bot (.receive (.fill orderId qty _ _)) =>
      inferInstanceAs (Decidable
        (∃ order ∈ desk.working.lookup orderId, qty.toNat ≤ order.remaining))
  | .bot (.receive (.ack _)) | .bot (.receive (.reject _ _)) | .bot (.receive (.closed _))
  | .bot (.receive .other) | .bot (.sendOrder _ _ _ _) | .bot (.book _ _ _ _)
  | .bot (.callCreate _ _) | .bot .fillTimeout | .bot (.setArbInProgress _)
  | .bot (.setArbStartTime _) | .deleteOrder _ | .sendMmOrder _ _ _ | .forget _
  | .setLastBlueMid _ => isTrue trivial

theorem exists_quote_iff (desk : MmDesk) (id : UInt64) :
    (∃ quote, desk.state.quoteId quote = id) ↔
      ∃ quote ∈ [MmQuote.bid, .ask, .flatten], desk.state.quoteId quote = id := by
  constructor
  · rintro ⟨quote, found⟩
    exact ⟨quote, by cases quote <;> decide, found⟩
  · rintro ⟨quote, -, found⟩
    exact ⟨quote, found⟩

instance decidableRemembers (mmLimit : Int32) (desk : MmDesk) :
    ∀ action, Decidable (desk.Remembers mmLimit action)
  | .bot (.receive (.fill orderId _ _ _)) =>
      decidable_of_iff _ (desk.exists_quote_iff orderId).symm
  | .sendMmOrder _ _ _ => inferInstanceAs (Decidable (_ ∧ (_ → _)))
  | .bot (.receive (.ack _)) | .bot (.receive (.reject _ _)) | .bot (.receive (.closed _))
  | .bot (.receive .other) | .bot (.sendOrder _ _ _ _) | .bot (.book _ _ _ _)
  | .bot (.callCreate _ _) | .bot .fillTimeout | .bot (.setArbInProgress _)
  | .bot (.setArbStartTime _) | .deleteOrder _ | .forget _ | .setLastBlueMid _ => isTrue trivial

/-! ### What bounds the position -/

/-- What the market maker keeps: its ids are its own and apart from each other, its working orders
are routed to BLUE with their side, and the position has room for what the remembered orders may
still fill. -/
structure Bounded (mmLimit : Int32) (desk : MmDesk) : Prop where
  noArb : ∀ id : UInt64, 90000 < id.toNat → desk.state.bot.orderMap.lookup id = none
  known : ∀ id order, desk.working.lookup id = some order →
    90000 < id.toNat ∧ id.toNat ≤ desk.state.mmOrderId.toNat
  routed : ∀ id order, desk.working.lookup id = some order →
    desk.state.bot.mmOrderMap.lookup id = some (SYM_BLUE, order.side)
  counted : 90000 ≤ desk.state.mmOrderId.toNat ∧
    ∀ quote, (desk.state.quoteId quote).toNat ≤ desk.state.mmOrderId.toNat
  apart : ∀ first second, desk.state.quoteId first = desk.state.quoteId second →
    first = second ∨ desk.state.quoteId first = 0
  sides : ∀ quote order, desk.working.lookup (desk.state.quoteId quote) = some order →
    order.side = quote.side
  small : desk.openQty .bid ≤ 1
  upper : desk.position + desk.openQty .flatten + desk.openQty .bid ≤ mmLimit.toInt
  lower : -mmLimit.toInt ≤ desk.position - desk.openQty .ask

section Bounded

variable {mmLimit : Int32} {desk : MmDesk}

theorem Bounded.within (bounded : desk.Bounded mmLimit) : desk.Within mmLimit := by
  have upper := bounded.upper
  have lower := bounded.lower
  constructor <;> omega

/-- No order works under the id 0. -/
theorem Bounded.ne_zero (bounded : desk.Bounded mmLimit) {id : UInt64} {order : WorkingOrder}
    (found : desk.working.lookup id = some order) : id ≠ 0 := by
  rintro rfl
  exact absurd (bounded.known 0 order found).1 (by decide)

theorem Bounded.lookup_zero (bounded : desk.Bounded mmLimit) : desk.working.lookup 0 = none := by
  cases found : desk.working.lookup 0 with
  | none => rfl
  | some order => exact absurd rfl (bounded.ne_zero found)

/-- Ids that are kept or forgotten are still counted and apart. -/
theorem Bounded.ids_of_kept_or_forgotten (bounded : desk.Bounded mmLimit) {after : MmDesk}
    (counter : after.state.mmOrderId = desk.state.mmOrderId)
    (ids : ∀ quote, after.state.quoteId quote = desk.state.quoteId quote ∨
      after.state.quoteId quote = 0) :
    (90000 ≤ after.state.mmOrderId.toNat ∧
        ∀ quote, (after.state.quoteId quote).toNat ≤ after.state.mmOrderId.toNat) ∧
      ∀ first second, after.state.quoteId first = after.state.quoteId second →
        first = second ∨ after.state.quoteId first = 0 := by
  rw [counter]
  refine ⟨⟨bounded.counted.1, ?_⟩, ?_⟩
  · intro quote
    rcases ids quote with kept | forgotten
    · rw [kept]
      exact bounded.counted.2 quote
    · rw [forgotten]
      exact Nat.zero_le _
  · intro first second same
    rcases ids first with kept | forgotten
    · rcases ids second with keptToo | forgottenToo
      · rw [kept, keptToo] at same
        rw [kept]
        exact bounded.apart first second same
      · exact Or.inr (same.trans forgottenToo)
    · exact Or.inr forgotten

theorem remaining_of_lookup {id : UInt64} {order : WorkingOrder}
    (found : desk.working.lookup id = some order) : desk.remaining id = order.remaining := by
  rw [remaining, found]
  rfl

theorem bounded_opening {state : MmState} (counter : state.mmOrderId = 90000)
    (noArb : ∀ id : UInt64, 90000 < id.toNat → state.bot.orderMap.lookup id = none)
    (noQuotes : ∀ quote, state.quoteId quote = 0)
    (within : (opening state).Within mmLimit) : (opening state).Bounded mmLimit where
  noArb := noArb
  known _ _ found := by cases found
  routed _ _ found := by cases found
  counted := by
    change _ ≤ state.mmOrderId.toNat ∧ ∀ quote, (state.quoteId quote).toNat ≤ _
    rw [counter]
    refine ⟨by decide, ?_⟩
    intro quote
    rw [noQuotes]
    exact Nat.zero_le _
  apart first _ _ := Or.inr (noQuotes first)
  sides _ _ found := by cases found
  small := Nat.zero_le 1
  upper := by
    change (opening state).position + 0 + 0 ≤ _
    have high := within.2
    omega
  lower := by
    change _ ≤ (opening state).position - 0
    have low := within.1
    omega

/-- Where an order comes off the exchange without a fill, everything is kept. -/
theorem Bounded.erase (bounded : desk.Bounded mmLimit) (id : UInt64) (after : MmDesk)
    (working : after.working = desk.working.erase id)
    (orders : after.state.bot.orderMap = desk.state.bot.orderMap)
    (routes : ∀ other, other ≠ id → after.state.bot.mmOrderMap.lookup other =
      desk.state.bot.mmOrderMap.lookup other)
    (counter : after.state.mmOrderId = desk.state.mmOrderId)
    (ids : ∀ quote, after.state.quoteId quote = desk.state.quoteId quote)
    (position : after.position = desk.position) : after.Bounded mmLimit := by
  have earlier : ∀ other order, after.working.lookup other = some order →
      other ≠ id ∧ desk.working.lookup other = some order := by
    intro other order found
    rw [working] at found
    refine ⟨?_, lookup_of_lookup_erase found⟩
    rintro rfl
    rw [lookup_erase_eq, if_pos rfl] at found
    cases found
  have fewer : ∀ quote, after.openQty quote ≤ desk.openQty quote := by
    intro quote
    rw [openQty, openQty, ids, remaining, remaining, working, lookup_erase_eq]
    split
    · exact Nat.zero_le _
    · exact Nat.le_refl _
  have bids := fewer .bid
  have asks := fewer .ask
  have flattens := fewer .flatten
  have upper := bounded.upper
  have lower := bounded.lower
  have small := bounded.small
  obtain ⟨counted, apart⟩ := bounded.ids_of_kept_or_forgotten counter fun quote =>
    Or.inl (ids quote)
  refine ⟨?_, ?_, ?_, counted, apart, ?_, by omega, by omega, by omega⟩
  · rw [orders]
    exact bounded.noArb
  · intro other order found
    rw [counter]
    exact bounded.known other order (earlier other order found).2
  · intro other order found
    obtain ⟨elsewhere, before⟩ := earlier other order found
    rw [routes other elsewhere]
    exact bounded.routed other order before
  · intro quote order found
    rw [ids] at found
    exact bounded.sides quote order (earlier _ order found).2

/-- What a fill of a market-maker order does to the loop's state.  Only a closing one forgets the
id, and only that of a bid or an ask. -/
theorem receive_quoteFill {state : MmState} {orderId : UInt64} {side : Side} (qty : UInt32)
    (price : Int32) (flags : FillFlags) (unrouted : state.bot.orderMap.lookup orderId = none)
    (routed : state.bot.mmOrderMap.lookup orderId = some (SYM_BLUE, side)) :
    let after := state.act (.bot (.receive (.fill orderId qty price flags)))
    after.bot.manager = state.bot.manager.onFill SYM_BLUE side qty price ∧
      after.bot.orderMap = state.bot.orderMap ∧
      after.bot.mmOrderMap = (if flags = .CLOSED then state.bot.mmOrderMap.erase orderId
        else state.bot.mmOrderMap) ∧
      after.mmOrderId = state.mmOrderId ∧ after.blueFlattenId = state.blueFlattenId ∧
      ∀ quote, after.quoteId quote = state.quoteId quote ∨
        (after.quoteId quote = 0 ∧ state.quoteId quote = orderId) := by
  obtain ⟨manager, orders, mmOrders⟩ := BotState.receive_mmFill qty price flags unrouted routed
  refine ⟨manager, orders, mmOrders, rfl, rfl, ?_⟩
  intro quote
  cases quote with
  | flatten => exact Or.inl rfl
  | bid =>
      simp only [MmState.act, MmState.quoteId, BotState.act, OeResponse.callbacks, List.foldl_cons,
        List.foldl_nil, BotState.callback, BotState.fillCallback, unrouted, routed]
      split
      · dsimp only
        split
        · rename_i own
          exact Or.inr ⟨rfl, own.symm⟩
        · exact Or.inl rfl
      · exact Or.inl rfl
  | ask =>
      simp only [MmState.act, MmState.quoteId, BotState.act, OeResponse.callbacks, List.foldl_cons,
        List.foldl_nil, BotState.callback, BotState.fillCallback, unrouted, routed]
      split
      · dsimp only
        split
        · rename_i own
          exact Or.inr ⟨rfl, own.symm⟩
        · exact Or.inl rfl
      · exact Or.inl rfl

theorem lookup_working_fill {orderId : UInt64} {order : WorkingOrder}
    (found : desk.working.lookup orderId = some order) (qty : UInt32) (price : Int32)
    (flags : FillFlags) (id : UInt64) :
    (desk.next (.bot (.receive (.fill orderId qty price flags)))).working.lookup id =
      if id = orderId then
        if flags = .CLOSED then none
        else some { order with remaining := order.remaining - qty.toNat }
      else desk.working.lookup id := by
  change (settleResponse desk.working _).lookup id = _
  rw [settleResponse_of_lookup found]
  by_cases closes : flags = .CLOSED
  · rw [if_pos closes, if_pos closes, lookup_erase_eq]
  · rw [if_neg closes, if_neg closes, lookup_insert_eq]

/-- What a fill leaves of the remembered orders: less of its own, and no more of another. -/
theorem Bounded.openQty_fill (bounded : desk.Bounded mmLimit) {orderId : UInt64}
    {order : WorkingOrder} (found : desk.working.lookup orderId = some order) {qty : UInt32}
    (within : qty.toNat ≤ order.remaining) (price : Int32) (flags : FillFlags) (quote : MmQuote) :
    (desk.next (.bot (.receive (.fill orderId qty price flags)))).openQty quote +
      (if desk.state.quoteId quote = orderId then qty.toNat else 0) ≤ desk.openQty quote := by
  obtain ⟨-, -, -, -, -, ids⟩ := receive_quoteFill qty price flags
    (bounded.noArb orderId (bounded.known orderId order found).1)
    (bounded.routed orderId order found)
  have afterwards : (desk.next (.bot (.receive (.fill orderId qty price flags)))).state.quoteId
      quote = desk.state.quoteId quote ∨
        ((desk.next (.bot (.receive (.fill orderId qty price flags)))).state.quoteId quote = 0 ∧
          desk.state.quoteId quote = orderId) := ids quote
  rw [openQty, openQty, remaining, lookup_working_fill found]
  rcases afterwards with same | ⟨forgotten, own⟩
  · rw [same]
    by_cases own : desk.state.quoteId quote = orderId
    · rw [if_pos own, if_pos own, own, remaining_of_lookup found]
      split
      · exact le_of_eq_of_le (Nat.zero_add _) within
      · exact le_of_eq (Nat.sub_add_cancel within)
    · rw [if_neg own, if_neg own]
      exact Nat.le_refl _
  · rw [forgotten, if_neg (bounded.ne_zero found).symm, bounded.lookup_zero, if_pos own, own,
      remaining_of_lookup found]
    exact le_of_eq_of_le (Nat.zero_add _) within

/-- A fill moves the position its order's way by its quantity: what is left of the order is room
enough for the sum to be exact. -/
theorem Bounded.position_fill (bounded : desk.Bounded mmLimit) {orderId : UInt64}
    {order : WorkingOrder} (found : desk.working.lookup orderId = some order) {qty : UInt32}
    (within : qty.toNat ≤ order.remaining) (price : Int32) (flags : FillFlags) {quote : MmQuote}
    (remembered : desk.state.quoteId quote = orderId) :
    (desk.next (.bot (.receive (.fill orderId qty price flags)))).position =
      exactMove desk.position quote.side qty.toNat := by
  obtain ⟨manager, -, -, -, -, -⟩ := receive_quoteFill qty price flags
    (bounded.noArb orderId (bounded.known orderId order found).1)
    (bounded.routed orderId order found)
  have side : order.side = quote.side := by
    apply bounded.sides quote order
    rw [remembered]
    exact found
  have rest : order.remaining = desk.openQty quote := by
    rw [openQty, remembered, remaining_of_lookup found]
  have upper := bounded.upper
  have lower := bounded.lower
  have high := mmLimit.toInt_lt
  change ((desk.state.act _).bot.manager.getPosition SYM_BLUE).toInt = _
  rw [manager, SymbolManager.getPosition_onFill, if_pos rfl, side]
  have here : (desk.state.bot.manager.getPosition SYM_BLUE).toInt = desk.position := rfl
  apply toInt_movedPosition
  · rw [here]
    cases quote <;> simp only [MmQuote.side, exactMove] <;> simp <;> omega
  · rw [here]
    cases quote <;> simp only [MmQuote.side, exactMove] <;> simp <;> omega

/-- A fill of a remembered order uses up only the room that the order had. -/
theorem Bounded.fill (bounded : desk.Bounded mmLimit) {orderId : UInt64} {order : WorkingOrder}
    (found : desk.working.lookup orderId = some order) {qty : UInt32}
    (within : qty.toNat ≤ order.remaining) (price : Int32) (flags : FillFlags) {quote : MmQuote}
    (remembered : desk.state.quoteId quote = orderId) :
    (desk.next (.bot (.receive (.fill orderId qty price flags)))).Bounded mmLimit := by
  have position := bounded.position_fill found within price flags remembered
  have own := bounded.openQty_fill found within price flags quote
  have bids := bounded.openQty_fill found within price flags .bid
  have asks := bounded.openQty_fill found within price flags .ask
  have flattens := bounded.openQty_fill found within price flags .flatten
  have working := lookup_working_fill found qty price flags
  obtain ⟨-, orders, mmOrders, counter, -, ids⟩ := receive_quoteFill qty price flags
    (bounded.noArb orderId (bounded.known orderId order found).1)
    (bounded.routed orderId order found)
  rw [if_pos remembered] at own
  generalize afterEq : desk.next (.bot (.receive (.fill orderId qty price flags))) = after
    at position own bids asks flattens working ⊢
  have sameState : after.state = desk.state.act (.bot (.receive (.fill orderId qty price flags))) :=
    by rw [← afterEq]; rfl
  rw [← sameState] at orders mmOrders counter ids
  have upper := bounded.upper
  have lower := bounded.lower
  have small := bounded.small
  obtain ⟨counted, apart⟩ := bounded.ids_of_kept_or_forgotten counter fun other =>
    (ids other).imp_right And.left
  refine ⟨?_, ?_, ?_, counted, apart, ?_, ?_, ?_, ?_⟩
  · rw [orders]
    exact bounded.noArb
  · intro id other here
    rw [working] at here
    rw [counter]
    split at here
    · rename_i same
      rw [same]
      exact bounded.known orderId order found
    · exact bounded.known id other here
  · intro id other here
    rw [working] at here
    rw [mmOrders]
    split at here
    · rename_i same
      split at here
      · cases here
      · rename_i stays
        cases here
        rw [if_neg stays, same]
        exact bounded.routed orderId order found
    · rename_i elsewhere
      have routed := bounded.routed id other here
      split
      · rw [lookup_erase_eq, if_neg elsewhere]
        exact routed
      · exact routed
  · intro other rest here
    rw [working] at here
    rcases ids other with same | ⟨forgotten, -⟩
    · rw [same] at here
      split at here
      · rename_i filled
        split at here
        · cases here
        · cases here
          apply bounded.sides other order
          rw [filled]
          exact found
      · exact bounded.sides other rest here
    · rw [forgotten] at here
      split at here
      · rename_i zero
        exact absurd zero.symm (bounded.ne_zero found)
      · exact absurd rfl (bounded.ne_zero here)
  · omega
  · cases quote <;> simp [MmQuote.side, exactMove] at position <;> omega
  · cases quote <;> simp [MmQuote.side, exactMove] at position <;> omega

/-- What a response does.  While no flatten order is remembered, none but the bid can raise the
position. -/
theorem Bounded.receive (bounded : desk.Bounded mmLimit) {response : OeResponse}
    (honest : desk.Honest (.bot (.receive response)))
    (remembers : desk.Remembers mmLimit (.bot (.receive response))) :
    let after := desk.next (.bot (.receive response))
    after.Bounded mmLimit ∧ after.state.blueFlattenId = desk.state.blueFlattenId ∧
      (desk.state.blueFlattenId = 0 →
        after.position + after.openQty .bid ≤ desk.position + desk.openQty .bid) := by
  have erased : ∀ (id : UInt64) (after : MmDesk), after.Bounded mmLimit →
      after.working = desk.working.erase id →
      after.state.quoteId .bid = desk.state.quoteId .bid → after.position = desk.position →
      after.position + after.openQty .bid ≤ desk.position + desk.openQty .bid := by
    intro id after _ working bid position
    have fewer : after.openQty .bid ≤ desk.openQty .bid := by
      rw [openQty, openQty, bid, remaining, remaining, working, lookup_erase_eq]
      split
      · exact Nat.zero_le _
      · exact Nat.le_refl _
    omega
  have idsKept : ∀ {bot : BotState}, bot.blueBidId = desk.state.bot.blueBidId →
      bot.blueAskId = desk.state.bot.blueAskId → ∀ quote,
        ({ desk.state with bot := bot } : MmState).quoteId quote = desk.state.quoteId quote := by
    intro bot bid ask quote
    cases quote with
    | bid => exact bid
    | ask => exact ask
    | flatten => rfl
  cases response with
  | ack orderId =>
      exact ⟨⟨bounded.noArb, bounded.known, bounded.routed, bounded.counted, bounded.apart,
        bounded.sides, bounded.small, bounded.upper, bounded.lower⟩, rfl, fun _ => le_refl _⟩
  | reject orderId reason =>
      have kept := bounded.erase orderId
        (desk.next (.bot (.receive (.reject orderId reason)))) rfl rfl
        (fun _ _ => rfl) rfl (idsKept rfl rfl) rfl
      exact ⟨kept, rfl, fun _ => erased orderId _ kept rfl rfl rfl⟩
  | fill orderId qty price flags =>
      obtain ⟨order, found, within⟩ := honest
      obtain ⟨quote, remembered⟩ := remembers
      have own := bounded.openQty_fill found within price flags quote
      have bids := bounded.openQty_fill found within price flags .bid
      have position := bounded.position_fill found within price flags remembered
      rw [if_pos remembered] at own
      refine ⟨bounded.fill found within price flags remembered, rfl, ?_⟩
      intro noFlatten
      cases quote with
      | bid =>
          simp only [MmQuote.side, exactMove, if_true] at position
          omega
      | ask =>
          have sells : exactMove desk.position MmQuote.ask.side qty.toNat =
              desk.position - qty.toNat := if_neg (by decide)
          rw [sells] at position
          omega
      | flatten =>
          exact absurd (remembered.symm.trans noFlatten) (bounded.ne_zero found)
  | closed orderId =>
      have kept := bounded.erase orderId
        (desk.next (.bot (.receive (.closed orderId)))) rfl rfl
        (fun other elsewhere => by
          change (desk.state.bot.mmOrderMap.erase orderId).lookup other = _
          rw [lookup_erase_eq, if_neg elsewhere])
        rfl (idsKept rfl rfl) rfl
      exact ⟨kept, rfl, fun _ => erased orderId _ kept rfl rfl rfl⟩
  | other =>
      exact ⟨⟨bounded.noArb, bounded.known, bounded.routed, bounded.counted, bounded.apart,
        bounded.sides, bounded.small, bounded.upper, bounded.lower⟩, rfl, fun _ => le_refl _⟩

/-- The position has room for one more order of this kind. -/
def RoomFor (mmLimit : Int32) (desk : MmDesk) (qty : Nat) : MmQuote → Prop
  | .bid => qty ≤ 1 ∧ desk.position + desk.openQty .flatten + qty ≤ mmLimit.toInt
  | .ask => -mmLimit.toInt ≤ desk.position - qty
  | .flatten => desk.position + qty + desk.openQty .bid ≤ mmLimit.toInt

theorem quoteId_setQuoteId (state : MmState) (quote other : MmQuote) (id : UInt64) :
    (state.setQuoteId quote id).quoteId other =
      if other = quote then id else state.quoteId other := by
  cases quote <;> cases other <;> rfl

/-- What one more order changes: it has the next id, and nothing else is touched. -/
structure Sends (desk : MmDesk) (quote : MmQuote) (qty : Nat) (after : MmDesk) : Prop where
  counter : after.state.mmOrderId = desk.state.mmOrderId + 1
  ids : ∀ other, after.state.quoteId other =
    if other = quote then desk.state.mmOrderId + 1 else desk.state.quoteId other
  working : ∀ id, after.working.lookup id =
    if id = desk.state.mmOrderId + 1 then some ⟨SYM_BLUE, quote.side, qty⟩
    else desk.working.lookup id
  mmOrders : ∀ id, after.state.bot.mmOrderMap.lookup id =
    if id = desk.state.mmOrderId + 1 then some (SYM_BLUE, quote.side)
    else desk.state.bot.mmOrderMap.lookup id
  orders : after.state.bot.orderMap = desk.state.bot.orderMap
  position : after.position = desk.position

theorem sends_sendMmOrder (desk : MmDesk) (quote : MmQuote) (qty : UInt32) (price : Int32) :
    desk.Sends quote qty.toNat (desk.next (.sendMmOrder quote qty price)) where
  counter := rfl
  ids other := quoteId_setQuoteId desk.state quote other _
  working id := lookup_insert_eq _ _ _ _
  mmOrders id := by
    change (Finmap.insert _ _ _).lookup id = _
    rw [lookup_insert_eq]
    cases quote <;> rfl
  orders := by cases quote <;> rfl
  position := by cases quote <;> rfl

section Sends

variable {quote : MmQuote} {qty : Nat} {after : MmDesk} (sends : desk.Sends quote qty after)
  (bounded : desk.Bounded mmLimit) (counts : desk.state.mmOrderId.toNat + 1 < 2 ^ 64)

include counts

theorem toNat_nextId : (desk.state.mmOrderId + 1).toNat = desk.state.mmOrderId.toNat + 1 := by
  rw [UInt64.toNat_add]
  exact Nat.mod_eq_of_lt counts

/-- The next id has not been given yet. -/
theorem ne_nextId {id : UInt64} (old : id.toNat ≤ desk.state.mmOrderId.toNat) :
    id ≠ desk.state.mmOrderId + 1 := by
  rintro rfl
  rw [toNat_nextId counts] at old
  omega

include bounded

theorem Bounded.quoteId_ne_nextId (other : MmQuote) :
    desk.state.quoteId other ≠ desk.state.mmOrderId + 1 :=
  ne_nextId counts (bounded.counted.2 other)

include sends

theorem Sends.openQty_eq (other : MmQuote) :
    after.openQty other = if other = quote then qty else desk.openQty other := by
  rw [openQty, openQty, remaining, remaining, sends.working, sends.ids]
  by_cases own : other = quote
  · rw [if_pos own, if_pos rfl, if_pos own]
    rfl
  · rw [if_neg own, if_neg (bounded.quoteId_ne_nextId counts other), if_neg own]

theorem Sends.known {id : UInt64} {order : WorkingOrder}
    (here : after.working.lookup id = some order) :
    90000 < id.toNat ∧ id.toNat ≤ after.state.mmOrderId.toNat := by
  have first := bounded.counted.1
  rw [sends.working] at here
  rw [sends.counter, toNat_nextId counts]
  split at here
  · rename_i own
    rw [own, toNat_nextId counts]
    omega
  · have old := bounded.known id order here
    omega

theorem Sends.counted : 90000 ≤ after.state.mmOrderId.toNat ∧
    ∀ other, (after.state.quoteId other).toNat ≤ after.state.mmOrderId.toNat := by
  have first := bounded.counted.1
  rw [sends.counter, toNat_nextId counts]
  refine ⟨by omega, ?_⟩
  intro other
  rw [sends.ids]
  split
  · rw [toNat_nextId counts]
  · have old := bounded.counted.2 other
    omega

theorem Sends.apart {first second : MmQuote}
    (same : after.state.quoteId first = after.state.quoteId second) :
    first = second ∨ after.state.quoteId first = 0 := by
  rw [sends.ids, sends.ids] at same
  rw [sends.ids]
  by_cases one : first = quote
  · by_cases two : second = quote
    · exact Or.inl (one.trans two.symm)
    · rw [if_pos one, if_neg two] at same
      exact absurd same.symm (bounded.quoteId_ne_nextId counts second)
  · rw [if_neg one] at same ⊢
    by_cases two : second = quote
    · rw [if_pos two] at same
      exact absurd same (bounded.quoteId_ne_nextId counts first)
    · rw [if_neg two] at same
      exact bounded.apart first second same

theorem Sends.sides {other : MmQuote} {order : WorkingOrder}
    (here : after.working.lookup (after.state.quoteId other) = some order) :
    order.side = other.side := by
  rw [sends.ids, sends.working] at here
  by_cases own : other = quote
  · rw [if_pos own, if_pos rfl] at here
    cases here
    rw [own]
  · rw [if_neg own, if_neg (bounded.quoteId_ne_nextId counts other)] at here
    exact bounded.sides other order here

/-- An order that there is room for leaves the position within its bounds. -/
theorem Sends.within_room (room : desk.RoomFor mmLimit qty quote) :
    after.openQty .bid ≤ 1 ∧
      after.position + after.openQty .flatten + after.openQty .bid ≤ mmLimit.toInt ∧
      -mmLimit.toInt ≤ after.position - after.openQty .ask := by
  have small := bounded.small
  have upper := bounded.upper
  have lower := bounded.lower
  have openQtys := sends.openQty_eq bounded counts
  rw [sends.position, openQtys, openQtys, openQtys]
  cases quote with
  | bid => simpa [RoomFor, and_assoc, lower] using room
  | ask => simpa [RoomFor, small, upper] using room
  | flatten => simpa [RoomFor, small, lower] using room

end Sends

/-- A new order under the next id. -/
theorem Bounded.sendMmOrder (bounded : desk.Bounded mmLimit) {quote : MmQuote} {qty : UInt32}
    (price : Int32) (counts : desk.state.mmOrderId.toNat + 1 < 2 ^ 64)
    (room : desk.RoomFor mmLimit qty.toNat quote) :
    (desk.next (.sendMmOrder quote qty price)).Bounded mmLimit := by
  have sends := desk.sends_sendMmOrder quote qty price
  obtain ⟨small, upper, lower⟩ := sends.within_room bounded counts room
  refine ⟨?_, fun id order here => sends.known bounded counts here, ?_,
    sends.counted bounded counts, fun first second same => sends.apart bounded counts same,
    fun other order here => sends.sides bounded counts here, small, upper, lower⟩
  · rw [sends.orders]
    exact bounded.noArb
  · intro id order here
    rw [sends.working] at here
    rw [sends.mmOrders]
    split at here
    · rename_i own
      cases here
      rw [if_pos own]
    · rename_i elsewhere
      rw [if_neg elsewhere]
      exact bounded.routed id order here

/-- An id that is forgotten leaves more room. -/
theorem Bounded.forget (bounded : desk.Bounded mmLimit) (quote : MmQuote) :
    (desk.next (.forget quote)).Bounded mmLimit ∧
      (desk.next (.forget quote)).openQty .bid ≤ desk.openQty .bid := by
  have ids : ∀ other, (desk.next (.forget quote)).state.quoteId other =
      if other = quote then 0 else desk.state.quoteId other := by
    intro other
    exact quoteId_setQuoteId desk.state quote other 0
  have keptOrForgotten : ∀ other,
      (desk.next (.forget quote)).state.quoteId other = desk.state.quoteId other ∨
        (desk.next (.forget quote)).state.quoteId other = 0 := by
    intro other
    rw [ids]
    split
    · exact Or.inr rfl
    · exact Or.inl rfl
  have fewer : ∀ other, (desk.next (.forget quote)).openQty other ≤ desk.openQty other := by
    intro other
    rw [openQty, openQty, ids]
    split
    · change ((desk.working.lookup 0).map _).getD 0 ≤ _
      rw [bounded.lookup_zero]
      exact Nat.zero_le _
    · exact Nat.le_refl _
  have bids := fewer .bid
  have asks := fewer .ask
  have flattens := fewer .flatten
  have position : (desk.next (.forget quote)).position = desk.position := by
    cases quote <;> rfl
  have mmOrders : (desk.next (.forget quote)).state.bot.mmOrderMap = desk.state.bot.mmOrderMap := by
    cases quote <;> rfl
  have orders : (desk.next (.forget quote)).state.bot.orderMap = desk.state.bot.orderMap := by
    cases quote <;> rfl
  have counter : (desk.next (.forget quote)).state.mmOrderId = desk.state.mmOrderId := by
    cases quote <;> rfl
  have upper := bounded.upper
  have lower := bounded.lower
  have small := bounded.small
  obtain ⟨counted, apart⟩ := bounded.ids_of_kept_or_forgotten counter keptOrForgotten
  refine ⟨⟨?_, ?_, ?_, counted, apart, ?_, by omega, by omega, by omega⟩, bids⟩
  · rw [orders]
    exact bounded.noArb
  · intro id other here
    rw [counter]
    exact bounded.known id other here
  · intro id other here
    rw [mmOrders]
    exact bounded.routed id other here
  · intro other rest here
    rw [ids] at here
    by_cases own : other = quote
    · rw [if_pos own] at here
      exact absurd rfl (bounded.ne_zero here)
    · rw [if_neg own] at here
      exact bounded.sides other rest here

/-- Other requests and flags change nothing that is kept. -/
theorem Bounded.same (bounded : desk.Bounded mmLimit) (after : MmDesk)
    (working : after.working = desk.working) (manager : after.state.bot.manager =
      desk.state.bot.manager) (orders : after.state.bot.orderMap = desk.state.bot.orderMap)
    (mmOrders : after.state.bot.mmOrderMap = desk.state.bot.mmOrderMap)
    (counter : after.state.mmOrderId = desk.state.mmOrderId)
    (ids : after.state.quoteId = desk.state.quoteId) :
    after.Bounded mmLimit ∧ after.position = desk.position ∧
      after.openQty .bid = desk.openQty .bid := by
  have position : after.position = desk.position := by rw [position, position, manager]
  have openQtys : ∀ quote, after.openQty quote = desk.openQty quote := by
    intro quote
    rw [openQty, openQty, remaining, remaining, ids, working]
  refine ⟨⟨?_, ?_, ?_, ?_, ?_, ?_, ?_, ?_, ?_⟩, position, openQtys .bid⟩
  · rw [orders]
    exact bounded.noArb
  · rw [working, counter]
    exact bounded.known
  · rw [working, mmOrders]
    exact bounded.routed
  · rw [counter, ids]
    exact bounded.counted
  · rw [ids]
    exact bounded.apart
  · rw [ids, working]
    exact bounded.sides
  · rw [openQtys]
    exact bounded.small
  · rw [openQtys, openQtys, position]
    exact bounded.upper
  · rw [openQtys, position]
    exact bounded.lower

theorem Bounded.setLastBlueMid (bounded : desk.Bounded mmLimit) (mid : Int32) :
    (desk.next (.setLastBlueMid mid)).Bounded mmLimit :=
  (bounded.same (desk.next (.setLastBlueMid mid)) rfl rfl rfl rfl rfl rfl).1

/-- The market maker has read the position `bluePos`, and only its bid has been able to raise it
since while it remembers no flatten order. -/
def Seen (mmLimit bluePos : Int32) (desk : MmDesk) : Prop :=
  desk.Bounded mmLimit ∧ -mmLimit.toInt ≤ bluePos.toInt ∧
    (desk.state.blueFlattenId = 0 → desk.position + desk.openQty .bid ≤ bluePos.toInt + 1)

end Bounded

/-! ### The loop keeps it -/

/-- A property that a wait and a delete keep. -/
structure Resting (mmLimit : Int32) (keep : MmDesk → Prop) : Prop where
  within : ∀ desk, keep desk → desk.Within mmLimit
  receives : ∀ desk response, keep desk → desk.Honest (.bot (.receive response)) →
    desk.Remembers mmLimit (.bot (.receive response)) →
    keep (desk.next (.bot (.receive response)))
  deletes : ∀ desk id, keep desk → keep (desk.next (.deleteOrder id))
  forgets : ∀ desk quote, keep desk → quote ≠ .flatten → keep (desk.next (.forget quote))

theorem resting_bounded (mmLimit : Int32) : Resting mmLimit (Bounded mmLimit) where
  within _ bounded := bounded.within
  receives _ _ bounded honest remembers := (bounded.receive honest remembers).1
  deletes desk id bounded :=
    (bounded.same (desk.next (.deleteOrder id)) rfl rfl rfl rfl rfl rfl).1
  forgets _ quote bounded _ := (bounded.forget quote).1

theorem resting_seen (mmLimit bluePos : Int32) : Resting mmLimit (Seen mmLimit bluePos) where
  within _ seen := seen.1.within
  receives desk response := by
    rintro ⟨bounded, low, room⟩ honest remembers
    obtain ⟨after, flatten, fewer⟩ := bounded.receive honest remembers
    refine ⟨after, low, ?_⟩
    intro noFlatten
    rw [flatten] at noFlatten
    exact (fewer noFlatten).trans (room noFlatten)
  deletes desk id := by
    rintro ⟨bounded, low, room⟩
    obtain ⟨after, position, bids⟩ :=
      bounded.same (desk.next (.deleteOrder id)) rfl rfl rfl rfl rfl rfl
    refine ⟨after, low, ?_⟩
    rw [position, bids]
    exact room
  forgets desk quote := by
    rintro ⟨bounded, low, room⟩ notFlatten
    obtain ⟨after, fewer⟩ := bounded.forget quote
    refine ⟨after, low, ?_⟩
    intro noFlatten
    have before : desk.state.blueFlattenId = 0 := by
      cases quote with
      | bid => exact noFlatten
      | ask => exact noFlatten
      | flatten => exact absurd rfl notFlatten
    have position : (desk.next (.forget quote)).position = desk.position := by
      cases quote <;> rfl
    have here := room before
    omega

end MmDesk

namespace LoopRun

/-- The desk follows the loop's log, and if the log meets what is assumed, the position has been
within the limit all along and `post` holds of the desk. -/
structure Keeps (mmLimit : Int32) (start : MmDesk) (post : MmDesk → Prop) (loop : LoopRun) :
    Prop where
  state : (loop.log.foldl MmDesk.next start).state = loop.state
  assured : Assured MmDesk.next
    (fun desk action => desk.Honest action ∧ desk.Remembers mmLimit action)
    (MmDesk.Within mmLimit) start loop.log post

namespace Keeps

variable {mmLimit : Int32} {start : MmDesk} {keep pre post : MmDesk → Prop} {loop : LoopRun}

theorem of_eq {later : LoopRun} (keeps : Keeps mmLimit start post loop)
    (state : later.state = loop.state) (log : later.log = loop.log) :
    Keeps mmLimit start post later where
  state := by rw [log, state, keeps.state]
  assured := by
    rw [log]
    exact keeps.assured

theorem weaken (keeps : Keeps mmLimit start pre loop)
    (implies : ∀ desk, desk.state = loop.state → pre desk → post desk) :
    Keeps mmLimit start post loop where
  state := keeps.state
  assured := keeps.assured.weaken fun holds _ => implies _ keeps.state holds

theorem act {action : LoopAction} (keeps : Keeps mmLimit start pre loop)
    (step : ∀ desk : MmDesk, desk.state = loop.state → pre desk → desk.Honest action →
      desk.Remembers mmLimit action →
      (desk.next action).Within mmLimit ∧ post (desk.next action)) :
    Keeps mmLimit start post (loop.act action) where
  state := by
    change ((loop.log ++ [action]).foldl MmDesk.next start).state = loop.state.act action
    rw [List.foldl_concat, ← keeps.state]
    rfl
  assured := keeps.assured.snoc fun holds _ assumed =>
    step _ keeps.state holds assumed.1 assumed.2

section Waits

variable (resting : MmDesk.Resting mmLimit keep) (world : World)

include resting

/-- Responses that are read keep what they keep. -/
theorem receives {later : LoopRun} (keeps : Keeps mmLimit start keep loop)
    (reached : Extends (fun _ action => ∃ response, action = .bot (.receive response)) loop later) :
    Keeps mmLimit start keep later := by
  obtain ⟨added, grown, final, along⟩ := reached
  induction added generalizing loop with
  | nil => exact keeps.of_eq final (by rw [grown, List.append_nil])
  | cons action added inductionHypothesis =>
      obtain ⟨⟨response, rfl⟩, rest⟩ := along
      have acted : Keeps mmLimit start keep (loop.act (.bot (.receive response))) := by
        apply keeps.act
        intro desk _ kept honest remembers
        have after := resting.receives desk response kept honest remembers
        exact ⟨resting.within _ after, after⟩
      refine inductionHypothesis acted ?_ final rest
      rw [grown]
      exact (List.append_assoc _ [_] _).symm

theorem waitForResponse (id : UInt64) (keeps : Keeps mmLimit start keep loop) :
    Keeps mmLimit start keep (loop.waitForResponse world id) := by
  apply receives resting keeps
  have read : Run.Extends (fun _ action => ∃ response, action = .receive response) loop.toRun
      (loop.toRun.waitForResponse world id).1 :=
    Run.Extends.trans (Run.Extends.of_eq rfl rfl)
      (Run.Extends.foldl (fun _ response => Run.Extends.act ⟨response, rfl⟩) _ _)
  refine Extends.absorb ?_ read
  rintro state action ⟨response, rfl⟩
  exact ⟨response, rfl⟩

theorem safeDelete {quote : MmQuote} (notFlatten : quote ≠ .flatten)
    (keeps : Keeps mmLimit start keep loop) :
    Keeps mmLimit start keep (loop.safeDelete world quote) := by
  rw [LoopRun.safeDelete]
  split
  · exact keeps
  · have asked : Keeps mmLimit start keep (loop.act (.deleteOrder (loop.quoteId quote))) := by
      apply keeps.act
      intro desk _ kept _ _
      have after := resting.deletes desk (loop.quoteId quote) kept
      exact ⟨resting.within _ after, after⟩
    apply (waitForResponse resting world _ asked).act
    intro desk _ kept _ _
    have after := resting.forgets desk quote kept notFlatten
    exact ⟨resting.within _ after, after⟩

end Waits

section Pass

variable (world : World)

open MmDesk in
/-- An order that the position has room for. -/
theorem sendMmOrder {quote : MmQuote} {qty : UInt32} (price : Int32)
    (keeps : Keeps mmLimit start pre loop)
    (room : ∀ desk : MmDesk, desk.state = loop.state → pre desk →
      (quote = .bid → desk.position + desk.openQty .flatten < mmLimit.toInt) →
      desk.Bounded mmLimit ∧ desk.RoomFor mmLimit qty.toNat quote) :
    Keeps mmLimit start (Bounded mmLimit) (loop.sendMmOrder world quote qty price) := by
  apply waitForResponse (resting_bounded mmLimit)
  apply keeps.act
  intro desk same holds _ remembers
  obtain ⟨bounded, enough⟩ := room desk same holds remembers.2
  have after := bounded.sendMmOrder price remembers.1 enough
  exact ⟨after.within, after⟩

/-- A position read here is the desk's. -/
theorem position_eq {desk : MmDesk} (same : desk.state = loop.state) :
    desk.position = (loop.getPosition SYM_BLUE).toInt := by
  rw [MmDesk.position, same]
  rfl

/-- From the reading of the position up to the flatten order. -/
theorem seen (keeps : Keeps mmLimit start (MmDesk.Bounded mmLimit) loop) :
    Keeps mmLimit start (MmDesk.Seen mmLimit (loop.getPosition SYM_BLUE)) loop := by
  apply keeps.weaken
  intro desk same bounded
  have small := bounded.small
  have low := bounded.within.1
  rw [position_eq same] at low
  refine ⟨bounded, low, ?_⟩
  intro _
  rw [position_eq same]
  omega

theorem guardBid {bluePos : Int32}
    (keeps : Keeps mmLimit start (MmDesk.Seen mmLimit bluePos) loop) :
    Keeps mmLimit start (MmDesk.Seen mmLimit bluePos) (loop.guardBid world mmLimit bluePos) := by
  rw [LoopRun.guardBid]
  split
  · exact safeDelete (MmDesk.resting_seen mmLimit bluePos) world (by decide) keeps
  · exact keeps

theorem guardAsk {bluePos : Int32}
    (keeps : Keeps mmLimit start (MmDesk.Seen mmLimit bluePos) loop) :
    Keeps mmLimit start (MmDesk.Seen mmLimit bluePos) (loop.guardAsk world mmLimit bluePos) := by
  rw [LoopRun.guardAsk]
  split
  · exact safeDelete (MmDesk.resting_seen mmLimit bluePos) world (by decide) keeps
  · exact keeps

/-- The flatten order buys back what was short when the position was read; since then the bid can
have bought one more. -/
theorem flattenShort {bluePos : Int32} (positive : 1 ≤ mmLimit.toInt)
    (keeps : Keeps mmLimit start (MmDesk.Seen mmLimit bluePos) loop) :
    Keeps mmLimit start (MmDesk.Bounded mmLimit) (loop.flattenShort world bluePos) := by
  have bounded : Keeps mmLimit start (MmDesk.Bounded mmLimit) loop :=
    keeps.weaken fun _ _ seen => seen.1
  rw [LoopRun.flattenShort]
  dsimp only
  split
  · rename_i short
    split
    · apply (keeps.of_eq rfl rfl : Keeps mmLimit start _ loop.quoted).sendMmOrder
      rintro desk same ⟨kept, low, room⟩ _
      have noFlatten : desk.state.blueFlattenId = 0 := by
        rw [same]
        exact short.2
      have negative := Int32.lt_iff_toInt_lt.mp short.1
      have high := mmLimit.toInt_lt
      rw [Int32.toInt_zero] at negative
      have notLeast : bluePos ≠ Int32.minValue := by
        rintro rfl
        have least : Int32.minValue.toInt = -2 ^ 31 := rfl
        omega
      have opposite : (-bluePos).toInt = -bluePos.toInt := FixedWidth.toInt_neg_of_ne notLeast
      have nonneg : 0 ≤ -bluePos := by
        rw [Int32.le_iff_toInt_le, opposite, Int32.toInt_zero]
        omega
      have size : ((-bluePos).toUInt32.toNat : Int) = -bluePos.toInt := by
        rw [Int32.toNat_toUInt32_of_le nonneg, ← opposite]
        exact Int.toNat_of_nonneg (by rw [opposite]; omega)
      refine ⟨kept, ?_⟩
      have here := room noFlatten
      change desk.position + _ + desk.openQty .bid ≤ _
      omega
    · exact bounded.of_eq rfl rfl
  · exact bounded

theorem forgetFlatten (bluePos : Int32)
    (keeps : Keeps mmLimit start (MmDesk.Bounded mmLimit) loop) :
    Keeps mmLimit start (MmDesk.Bounded mmLimit) (loop.forgetFlatten bluePos) := by
  rw [LoopRun.forgetFlatten]
  split
  · apply keeps.act
    intro desk _ bounded _ _
    exact ⟨(bounded.forget .flatten).1.within, (bounded.forget .flatten).1⟩
  · exact keeps

theorem quoteBid (blueTick : UInt32) (mid : Int32)
    (keeps : Keeps mmLimit start (MmDesk.Bounded mmLimit) loop) :
    Keeps mmLimit start (MmDesk.Bounded mmLimit) (loop.quoteBid world mmLimit blueTick mid) := by
  rw [LoopRun.quoteBid]
  split
  · apply keeps.sendMmOrder
    intro desk _ bounded roomy
    have here := roomy rfl
    refine ⟨bounded, by decide, ?_⟩
    change desk.position + _ + (1 : Nat) ≤ _
    omega
  · exact keeps

theorem quoteAsk (blueTick : UInt32) (mid : Int32)
    (keeps : Keeps mmLimit start (MmDesk.Bounded mmLimit) loop) :
    Keeps mmLimit start (MmDesk.Bounded mmLimit) (loop.quoteAsk world mmLimit blueTick mid) := by
  rw [LoopRun.quoteAsk]
  split
  · rename_i above
    apply keeps.sendMmOrder
    intro desk same bounded _
    have strictly := Int32.lt_iff_toInt_lt.mp above
    have opposite : (-mmLimit).toInt = -mmLimit.toInt := by
      apply FixedWidth.toInt_neg_of_ne
      rintro rfl
      have within := bounded.within
      have least : Int32.minValue.toInt = -2 ^ 31 := rfl
      have room := within.1.trans within.2
      omega
    rw [opposite, ← position_eq same] at strictly
    refine ⟨bounded, ?_⟩
    change _ ≤ desk.position - (1 : Nat)
    omega
  · exact keeps

theorem requote (blueTick : UInt32) (keeps : Keeps mmLimit start (MmDesk.Bounded mmLimit) loop) :
    Keeps mmLimit start (MmDesk.Bounded mmLimit) (loop.requote world mmLimit blueTick) := by
  have read : Keeps mmLimit start (MmDesk.Bounded mmLimit) loop.quoted.quoted := keeps.of_eq rfl rfl
  rw [LoopRun.requote]
  dsimp only
  split
  · split
    · have resting := MmDesk.resting_bounded mmLimit
      have deleted := safeDelete resting world (by decide : MmQuote.ask ≠ .flatten)
        (safeDelete resting world (by decide : MmQuote.bid ≠ .flatten) read)
      rw [LoopRun.quoteAround]
      apply (quoteAsk world blueTick _ (quoteBid world blueTick _ deleted)).act
      intro desk _ bounded _ _
      exact ⟨(bounded.setLastBlueMid _).within, bounded.setLastBlueMid _⟩
    · exact read
  · exact read

/-- One event of the market maker. -/
theorem mmStep (blueTick : UInt32) (positive : 1 ≤ mmLimit.toInt)
    (keeps : Keeps mmLimit start (MmDesk.Bounded mmLimit) loop) (event : MmEvent) :
    Keeps mmLimit start (MmDesk.Bounded mmLimit) (loop.mmStep world mmLimit blueTick event) := by
  cases event with
  | pass =>
      have guarded := guardAsk world (guardBid world keeps.seen)
      exact requote world blueTick (forgetFlatten _ (flattenShort world positive guarded))
  | waitElsewhere id => exact waitForResponse (MmDesk.resting_bounded mmLimit) world id keeps
  | setArbInProgress inProgress =>
      apply keeps.act
      intro desk _ bounded _ _
      have after := (bounded.same (desk.next (.bot (.setArbInProgress inProgress))) rfl rfl rfl rfl
        rfl rfl).1
      exact ⟨after.within, after⟩

/-- Any number of events. -/
theorem mmSteps (blueTick : UInt32) (positive : 1 ≤ mmLimit.toInt)
    (keeps : Keeps mmLimit start (MmDesk.Bounded mmLimit) loop) (events : List MmEvent) :
    Keeps mmLimit start (MmDesk.Bounded mmLimit)
      (events.foldl (LoopRun.mmStep world mmLimit blueTick) loop) := by
  induction events generalizing loop with
  | nil => exact keeps
  | cons event events inductionHypothesis =>
      exact inductionHypothesis (keeps.mmStep world blueTick positive event)

end Pass

end Keeps

/-! ### Runs -/

/-- Whatever the quotes are and however the responses come, while every FILL is of an order that the
market maker remembers and every bid leaves room for the flatten order, the BLUE position stays
within the limit. -/
theorem position_within_limit (world : World) (mmLimit : Int32) (blueTick : UInt32)
    (bot : BotState) (inbox : List OeResponse) (events : List MmEvent) (quotable : 2 ≤ mmLimit)
    (noArb : ∀ id : UInt64, 90000 < id.toNat → bot.orderMap.lookup id = none)
    (noQuotes : bot.blueBidId = 0 ∧ bot.blueAskId = 0)
    (within : (MmDesk.opening (MmState.new bot)).Within mmLimit)
    (honest : Along MmDesk.next MmDesk.Honest (MmDesk.opening (MmState.new bot))
      (events.foldl (mmStep world mmLimit blueTick) (new (MmState.new bot) inbox)).log)
    (remembers : Along MmDesk.next (MmDesk.Remembers mmLimit) (MmDesk.opening (MmState.new bot))
      (events.foldl (mmStep world mmLimit blueTick) (new (MmState.new bot) inbox)).log) :
    ∀ earlier,
      earlier <+: (events.foldl (mmStep world mmLimit blueTick) (new (MmState.new bot) inbox)).log →
        (earlier.foldl MmDesk.next (MmDesk.opening (MmState.new bot))).Within mmLimit := by
  have positive : 1 ≤ mmLimit.toInt := by
    have atLeast := Int32.le_iff_toInt_le.mp quotable
    have two : (2 : Int32).toInt = 2 := rfl
    omega
  have forgotten : ∀ quote, (MmState.new bot).quoteId quote = 0 := by
    intro quote
    cases quote with
    | bid => exact noQuotes.1
    | ask => exact noQuotes.2
    | flatten => rfl
  have opened : Keeps mmLimit (MmDesk.opening (MmState.new bot)) (MmDesk.Bounded mmLimit)
      (new (MmState.new bot) inbox) :=
    ⟨rfl, assured_nil within (MmDesk.bounded_opening rfl noArb forgotten within)⟩
  exact ((opened.mmSteps world blueTick positive events).assured (honest.and remembers)).1

/-! ### Two runs -/

/-- The quotes rise by ten at each reading. -/
def risingWorld : World where
  clock _ := 0
  bestBidPrice reads _ := Int32.ofNat (1000 + 10 * reads)
  bestAskPrice reads _ := Int32.ofNat (1010 + 10 * reads)
  create _ amount := ⟨true, "", amount⟩

/-- One BLUE has been sold short. -/
def shortBot : BotState :=
  { Run.loggedInBot with manager := SymbolManager.empty.onFill SYM_BLUE .SELL 1 1000 }

/-- The flatten order fills before the quotes are moved. -/
def promptFlatten : List OeResponse :=
  [.ack 90001, .ack 90002, .ack 90003, .fill 90001 1 1010 .CLOSED, .closed 90002, .closed 90003,
    .ack 90004, .ack 90005]

theorem position_within_limit_promptFlatten :
    (((List.replicate 2 MmEvent.pass).foldl (mmStep risingWorld 2 5)
      (new (MmState.new shortBot) promptFlatten)).log.foldl MmDesk.next
        (MmDesk.opening (MmState.new shortBot))).Within 2 :=
  position_within_limit risingWorld 2 5 shortBot promptFlatten (List.replicate 2 .pass)
    (by decide) (fun _ _ => rfl) (by decide) (by decide +kernel) (by decide +kernel)
    (by decide +kernel) _ List.prefix_rfl

/-- The flatten order rests while one bid after the other is filled, and its id is forgotten as soon
as the position is not short. -/
def lateFlatten : List OeResponse :=
  [.ack 90001, .ack 90002, .ack 90003,
    .fill 90002 1 1000 .CLOSED, .closed 90003, .ack 90004, .ack 90005,
    .fill 90004 1 1000 .CLOSED, .reject 90004 .UKNOWN_ORDER_ID, .closed 90005, .ack 90006,
    .ack 90007,
    .fill 90006 1 1000 .CLOSED, .reject 90006 .UKNOWN_ORDER_ID, .closed 90007, .ack 90008,
    .fill 90001 1 1010 .CLOSED]

theorem lateFlatten_exceeds_limit :
    let log := ((List.replicate 5 MmEvent.pass).foldl (mmStep risingWorld 2 5)
      (new (MmState.new shortBot) lateFlatten)).log
    (MmDesk.opening (MmState.new shortBot)).Within 2 ∧
      Along MmDesk.next MmDesk.Honest (MmDesk.opening (MmState.new shortBot)) log ∧
      ¬ (log.foldl MmDesk.next (MmDesk.opening (MmState.new shortBot))).Within 2 ∧
      (log.foldl MmDesk.next (MmDesk.opening (MmState.new shortBot))).position = 3 := by
  refine ⟨by decide +kernel, by decide +kernel, by decide +kernel, by decide +kernel⟩

end LoopRun

end HftAlgorithms
