/-
Module: HftAlgorithms.Proofs.Liquidation
Purpose: When the sells that close a long position stay within it.  Every sell is
  sent for the whole position, whether or not an earlier one still rests.
Trusted boundary: none
Main exports: WorkingOrder, Desk, Desk.next, Desk.Covered, Desk.ClosesOnce,
  Desk.covered_of_closesOnce
-/
import HftAlgorithms.Proofs.BotRuns

namespace HftAlgorithms

open StateMachine

/-! ### The orders on the exchange -/

/-- An order that the bot has sent and the exchange has not finished. -/
structure WorkingOrder where
  symbol : UInt32
  side : Side
  remaining : Nat
deriving DecidableEq, Repr

/-- The bot and its working orders, as the responses it has read account for them. -/
structure Desk where
  bot : BotState
  working : FiniteMap UInt64 WorkingOrder

/-- What a response does to the working orders. -/
def settleResponse (working : FiniteMap UInt64 WorkingOrder) :
    OeResponse → FiniteMap UInt64 WorkingOrder
  | .ack _ => working
  | .reject orderId _ => working.erase orderId
  | .fill orderId qty _ flags =>
      match working.lookup orderId with
      | none => working
      | some order =>
          if flags = .CLOSED then working.erase orderId
          else working.insert orderId { order with remaining := order.remaining - qty.toNat }
  | .closed orderId => working.erase orderId
  | .other => working

theorem settleResponse_of_lookup {working : FiniteMap UInt64 WorkingOrder} {orderId : UInt64}
    {order : WorkingOrder} (found : working.lookup orderId = some order) (qty : UInt32)
    (price : Int32) (flags : FillFlags) :
    settleResponse working (.fill orderId qty price flags) =
      if flags = .CLOSED then working.erase orderId
      else working.insert orderId { order with remaining := order.remaining - qty.toNat } := by
  rw [settleResponse, found]

namespace Desk

/-- Before the first order. -/
def opening (bot : BotState) : Desk := ⟨bot, ∅⟩

def next (desk : Desk) (action : BotAction) : Desk where
  bot := desk.bot.act action
  working :=
    match action with
    | .sendOrder symbol side qty _ =>
        desk.working.insert desk.bot.nextOrderId ⟨symbol, side, qty.toNat⟩
    | .receive response => settleResponse desk.working response
    | _ => desk.working

/-- What one order may still sell of a symbol.  As for positions, what is not a BUY sells. -/
def sellWeight (symbol : UInt32) (_ : UInt64) (order : WorkingOrder) : Nat :=
  if order.symbol = symbol ∧ order.side ≠ .BUY then order.remaining else 0

/-- The total unfilled quantity of the working sells of a symbol. -/
def sells (desk : Desk) (symbol : UInt32) : Nat :=
  FiniteMap.sumBy (sellWeight symbol) desk.working

def position (desk : Desk) (symbol : UInt32) : Int :=
  (desk.bot.manager.getPosition symbol).toInt

/-- No symbol has more to sell than its long position. -/
def Covered (desk : Desk) : Prop :=
  ∀ symbol, (desk.sells symbol : Int) ≤ max 0 (desk.position symbol)

/-! ### What is assumed of a step -/

/-- The exchange fills an order of the arb only while it works, and by at most what is left. -/
def Honest (desk : Desk) : BotAction → Prop
  | .receive (.fill orderId qty _ _) =>
      (desk.bot.orderMap.lookup orderId).isSome →
        ∃ order ∈ desk.working.lookup orderId, qty.toNat ≤ order.remaining
  | _ => True

/-- A buy of `qty` does not wrap a position that has sells working. -/
def HasRoom (desk : Desk) (symbol : UInt32) (qty : UInt32) : Prop :=
  desk.sells symbol = 0 ∨ desk.position symbol + qty.toNat < 2 ^ 31

/-- A sell is sent only when no sell of the symbol is working, `/create` uses up only what no
working sell needs, and no buy wraps a position under working sells. -/
def ClosesOnce (desk : Desk) : BotAction → Prop
  | .sendOrder symbol side _ _ => side ≠ .BUY → desk.sells symbol = 0
  | .book symbol side qty _ =>
      if side = .BUY then desk.HasRoom symbol qty
      else desk.sells symbol = 0 ∨ (desk.sells symbol : Int) + qty.toNat ≤ desk.position symbol
  | .receive (.fill orderId qty _ _) =>
      ∀ route ∈ desk.bot.orderMap.lookup orderId, route.2 = .BUY → desk.HasRoom route.1 qty
  | _ => True

instance decidableHonest (desk : Desk) : ∀ action, Decidable (desk.Honest action)
  | .receive (.fill _ _ _ _) => inferInstanceAs (Decidable (_ → _))
  | .receive (.ack _) | .receive (.reject _ _) | .receive (.closed _) | .receive .other
  | .sendOrder _ _ _ _ | .book _ _ _ _ | .callCreate _ _ | .fillTimeout | .setArbInProgress _
  | .setArbStartTime _ => isTrue trivial

instance decidableHasRoom (desk : Desk) (symbol qty : UInt32) :
    Decidable (desk.HasRoom symbol qty) :=
  inferInstanceAs (Decidable (_ ∨ _))

instance decidableClosesOnce (desk : Desk) : ∀ action, Decidable (desk.ClosesOnce action)
  | .sendOrder _ _ _ _ => inferInstanceAs (Decidable (_ → _))
  | .book symbol side qty _ =>
      inferInstanceAs (Decidable
        (if side = .BUY then desk.HasRoom symbol qty
        else desk.sells symbol = 0 ∨
          (desk.sells symbol : Int) + qty.toNat ≤ desk.position symbol))
  | .receive (.fill orderId qty _ _) =>
      inferInstanceAs (Decidable (∀ route ∈ desk.bot.orderMap.lookup orderId,
        route.2 = .BUY → desk.HasRoom route.1 qty))
  | .receive (.ack _) | .receive (.reject _ _) | .receive (.closed _) | .receive .other
  | .callCreate _ _ | .fillTimeout | .setArbInProgress _ | .setArbStartTime _ => isTrue trivial

/-- What the code does by itself: an order buys, or sells the whole position of a dorm or UNDY. -/
def Sized (bot : BotState) : BotAction → Prop
  | .sendOrder symbol side qty _ =>
      side = .BUY ∨ (symbol ∈ DORM_IDS ∨ symbol = SYM_UNDY) ∧
        (qty.toNat : Int) = (bot.manager.getPosition symbol).toInt
  | _ => True

theorem trading_sized : Run.Trading Sized where
  setsInProgress _ _ := trivial
  setsStartTime _ _ := trivial
  receives _ _ := trivial
  buys _ _ _ _ := Or.inl rfl
  closes bot symbol price closable long := by
    have positive := Int32.lt_iff_toInt_lt.mp long
    rw [Int32.toInt_zero] at positive
    refine Or.inr ⟨closable, ?_⟩
    rw [Int32.toNat_toUInt32_of_le (Int32.le_of_lt long)]
    exact Int.toNat_of_nonneg (Int.le_of_lt positive)
  books _ _ _ _ _ := trivial
  creates _ _ _ := trivial
  timesOut _ := trivial

/-! ### The sells that work -/

/-- A request adds what it sells, and replaces whatever had its id. -/
theorem sells_sendOrder_le (desk : Desk) (symbol : UInt32) (side : Side) (qty : UInt32)
    (price : Int32) (other : UInt32) :
    (desk.next (.sendOrder symbol side qty price)).sells other ≤
      desk.sells other + if symbol = other ∧ side ≠ .BUY then qty.toNat else 0 := by
  change FiniteMap.sumBy _ (desk.working.insert _ _) ≤ _
  rw [FiniteMap.sumBy_insert, Nat.add_comm]
  exact Nat.add_le_add_right (FiniteMap.sumBy_erase_le _ _ _) _

/-- A fill of a working sell takes its quantity off the sells that work. -/
theorem sells_fill_le {desk : Desk} {orderId : UInt64} {order : WorkingOrder}
    (found : desk.working.lookup orderId = some order) {qty : UInt32}
    (within : qty.toNat ≤ order.remaining) (price : Int32) (flags : FillFlags) (other : UInt32) :
    ((desk.next (.receive (.fill orderId qty price flags))).sells other +
        if order.symbol = other ∧ order.side ≠ .BUY then qty.toNat else 0) ≤
      desk.sells other := by
  have whole := FiniteMap.sumBy_of_lookup (sellWeight other) found
  change FiniteMap.sumBy _ (settleResponse desk.working _) + _ ≤ FiniteMap.sumBy _ desk.working
  rw [whole, settleResponse_of_lookup found, sellWeight]
  split
  · split <;> omega
  · rw [FiniteMap.sumBy_insert, sellWeight]
    dsimp only
    split <;> omega

/-- No response adds to the sells that work. -/
theorem sells_receive_le (desk : Desk) (response : OeResponse) (other : UInt32) :
    (desk.next (.receive response)).sells other ≤ desk.sells other := by
  change FiniteMap.sumBy _ (settleResponse desk.working response) ≤ _
  cases response with
  | ack orderId => exact Nat.le_refl _
  | other => exact Nat.le_refl _
  | reject orderId rejectReason => exact FiniteMap.sumBy_erase_le _ _ _
  | closed orderId => exact FiniteMap.sumBy_erase_le _ _ _
  | fill orderId qty price flags =>
      cases found : desk.working.lookup orderId with
      | none => simp [settleResponse, found, sells]
      | some order =>
          have whole := FiniteMap.sumBy_of_lookup (sellWeight other) found
          rw [settleResponse_of_lookup found]
          split
          · exact FiniteMap.sumBy_erase_le _ _ _
          · rw [sells, whole, FiniteMap.sumBy_insert]
            apply Nat.add_le_add_right
            rw [sellWeight, sellWeight]
            dsimp only
            split
            · exact Nat.sub_le _ _
            · exact Nat.le_refl 0

/-! ### One position under its sells -/

/-- A sold quantity comes off the sells and off the position. -/
theorem covered_sold {before after : Nat} {pos : Int32} {side : Side} {qty : UInt32}
    (sold : side ≠ .BUY) (covered : (before : Int) ≤ max 0 pos.toInt)
    (taken : after + qty.toNat ≤ before) :
    (after : Int) ≤ max 0 (movedPosition pos side qty).toInt := by
  by_cases nothing : after = 0
  · rw [nothing]
    exact Int.le_max_left 0 _
  · have exact_ : exactMove pos.toInt side qty.toNat = pos.toInt - qty.toNat := if_neg sold
    have high := pos.toInt_lt
    rw [toInt_movedPosition (by omega) (by omega), exact_]
    omega

/-- A bought quantity only adds to the position, unless it wraps. -/
theorem covered_bought {before after : Nat} {pos : Int32} {qty : UInt32}
    (covered : (before : Int) ≤ max 0 pos.toInt) (notMore : after ≤ before)
    (room : before = 0 ∨ pos.toInt + qty.toNat < 2 ^ 31) :
    (after : Int) ≤ max 0 (movedPosition pos .BUY qty).toInt := by
  by_cases nothing : after = 0
  · rw [nothing]
    exact Int.le_max_left 0 _
  · have exact_ : exactMove pos.toInt .BUY qty.toNat = pos.toInt + qty.toNat := if_pos rfl
    rw [toInt_movedPosition (by omega) (by omega), exact_]
    omega

/-! ### Steps -/

/-- Working orders are routed as they were sent, the market maker's orders are for BLUE, and the
sells that work are covered; none of them sells BLUE. -/
structure Sound (desk : Desk) : Prop where
  routed : ∀ id order, desk.working.lookup id = some order →
    desk.bot.orderMap.lookup id = some (order.symbol, order.side)
  mmBlue : ∀ id route, desk.bot.mmOrderMap.lookup id = some route → route.1 = SYM_BLUE
  blueUnsold : desk.sells SYM_BLUE = 0
  covered : desk.Covered

theorem sound_opening {bot : BotState}
    (mmBlue : ∀ id route, bot.mmOrderMap.lookup id = some route → route.1 = SYM_BLUE) :
    (opening bot).Sound where
  routed id order found := by simp [opening] at found
  mmBlue := mmBlue
  blueUnsold := rfl
  covered symbol := Int.le_max_left 0 _

theorem Sound.sendOrder {desk : Desk} (sound : desk.Sound) {symbol : UInt32} {side : Side}
    {qty : UInt32} (price : Int32) (sized : Sized desk.bot (.sendOrder symbol side qty price))
    (once : desk.ClosesOnce (.sendOrder symbol side qty price)) :
    (desk.next (.sendOrder symbol side qty price)).Sound := by
  have grown := sells_sendOrder_le desk symbol side qty price
  refine ⟨?_, sound.mmBlue, ?_, ?_⟩
  · intro id order found
    change (desk.working.insert _ _).lookup id = some order at found
    change (desk.bot.orderMap.insert _ _).lookup id = _
    rw [FiniteMap.lookup_insert_eq] at found ⊢
    by_cases new : id = desk.bot.nextOrderId
    · rw [if_pos new] at found ⊢
      cases found
      rfl
    · rw [if_neg new] at found ⊢
      exact sound.routed id order found
  · have blue := grown SYM_BLUE
    rw [sound.blueUnsold, if_neg] at blue
    · exact Nat.le_zero.mp blue
    · rintro ⟨rfl, sells⟩
      rcases sized with buy | ⟨closable, -⟩
      · exact sells buy
      · exact absurd closable (by decide)
  · intro other
    have covered := sound.covered other
    have more := grown other
    change _ ≤ max 0 (desk.position other)
    by_cases selling : symbol = other ∧ side ≠ .BUY
    · obtain ⟨rfl, sells⟩ := selling
      have none := once sells
      rcases sized with buy | ⟨-, whole⟩
      · exact absurd buy sells
      · rw [if_pos ⟨rfl, sells⟩, none] at more
        change (qty.toNat : Int) = desk.position symbol at whole
        omega
    · rw [if_neg selling] at more
      omega

theorem Sound.book {desk : Desk} (sound : desk.Sound) {symbol : UInt32} {side : Side}
    {qty : UInt32} (price : Int32) (once : desk.ClosesOnce (.book symbol side qty price)) :
    (desk.next (.book symbol side qty price)).Sound := by
  refine ⟨sound.routed, sound.mmBlue, sound.blueUnsold, ?_⟩
  intro other
  have covered := sound.covered other
  change (desk.sells other : Int) ≤
    max 0 ((desk.bot.manager.onFill symbol side qty price).getPosition other).toInt
  rw [SymbolManager.getPosition_onFill]
  by_cases own : other = symbol
  · subst own
    rw [if_pos rfl]
    by_cases buy : side = .BUY
    · subst buy
      exact covered_bought covered (Nat.le_refl _) once
    · rw [ClosesOnce, if_neg buy] at once
      rcases once with none | enough
      · rw [none]
        exact Int.le_max_left 0 _
      · apply covered_sold buy _ (Nat.le_refl _)
        change _ ≤ max 0 (desk.position other)
        omega
  · rw [if_neg own]
    exact covered

/-- A fill of one of the arb's orders. -/
theorem Sound.receiveArbFill {desk : Desk} (sound : desk.Sound) {orderId : UInt64}
    {order : WorkingOrder} (found : desk.working.lookup orderId = some order) {qty : UInt32}
    (within : qty.toNat ≤ order.remaining) (price : Int32) (flags : FillFlags)
    (once : desk.ClosesOnce (.receive (.fill orderId qty price flags))) :
    (desk.next (.receive (.fill orderId qty price flags))).Sound := by
  have route := sound.routed orderId order found
  obtain ⟨manager, orders, mmOrders⟩ := BotState.receive_arbFill qty price flags route
  have less := sells_fill_le found within price flags
  refine ⟨?_, ?_, ?_, ?_⟩
  · intro id other working
    change (settleResponse desk.working _).lookup id = some other at working
    change (desk.bot.act _).orderMap.lookup id = _
    rw [settleResponse_of_lookup found] at working
    rw [orders]
    by_cases closed : flags = .CLOSED
    · rw [if_pos closed, FiniteMap.lookup_erase_eq] at working ⊢
      by_cases same : id = orderId
      · rw [if_pos same] at working
        cases working
      · rw [if_neg same] at working ⊢
        exact sound.routed id other working
    · rw [if_neg closed] at working ⊢
      rw [FiniteMap.lookup_insert_eq] at working
      by_cases same : id = orderId
      · rw [if_pos same] at working
        cases working
        rw [same]
        exact route
      · rw [if_neg same] at working
        exact sound.routed id other working
  · change ∀ id route, (desk.bot.act _).mmOrderMap.lookup id = some route → _
    rw [mmOrders]
    exact sound.mmBlue
  · have blue := less SYM_BLUE
    rw [sound.blueUnsold] at blue
    exact Nat.le_zero.mp (Nat.le_trans (Nat.le_add_right _ _) blue)
  · intro other
    have covered := sound.covered other
    have taken := less other
    change _ ≤ max 0 ((desk.bot.act _).manager.getPosition other).toInt
    rw [manager, SymbolManager.getPosition_onFill]
    by_cases own : other = order.symbol
    · subst own
      rw [if_pos rfl]
      by_cases buy : order.side = .BUY
      · have room := once _ route buy
        rw [buy]
        exact covered_bought covered (Nat.le_trans (Nat.le_add_right _ _) taken) room
      · rw [if_pos ⟨rfl, buy⟩] at taken
        exact covered_sold buy covered taken
    · rw [if_neg own]
      change _ ≤ max 0 (desk.position other)
      omega

/-- A fill of one of the market maker's orders, or of no known order. -/
theorem Sound.receiveOtherFill {desk : Desk} (sound : desk.Sound) {orderId : UInt64}
    (unrouted : desk.bot.orderMap.lookup orderId = none) (qty : UInt32) (price : Int32)
    (flags : FillFlags) : (desk.next (.receive (.fill orderId qty price flags))).Sound := by
  have notWorking : desk.working.lookup orderId = none := by
    cases found : desk.working.lookup orderId with
    | none => rfl
    | some order =>
        have route := sound.routed orderId order found
        rw [unrouted] at route
        cases route
  have working : (desk.next (.receive (.fill orderId qty price flags))).working =
      desk.working := by
    change settleResponse desk.working (.fill orderId qty price flags) = desk.working
    rw [settleResponse, notWorking]
  have sells : ∀ symbol, (desk.next (.receive (.fill orderId qty price flags))).sells symbol =
      desk.sells symbol := by
    intro symbol
    rw [Desk.sells, working, Desk.sells]
  obtain ⟨orders, mmOrders, positions⟩ := BotState.receive_unroutedFill qty price flags unrouted
  refine ⟨?_, ?_, (sells _).trans sound.blueUnsold, ?_⟩
  · rw [working]
    change ∀ id order, _ → (desk.bot.act _).orderMap.lookup id = _
    rw [orders]
    exact sound.routed
  · exact fun id route found => sound.mmBlue id route (mmOrders id route found)
  · intro symbol
    rw [sells]
    by_cases blue : symbol = SYM_BLUE
    · rw [blue, sound.blueUnsold]
      exact Int.le_max_left 0 _
    · change _ ≤ max 0 ((desk.bot.act _).manager.getPosition symbol).toInt
      rw [positions symbol fun route found same =>
        blue (same.trans (sound.mmBlue orderId route found))]
      exact sound.covered symbol

/-- A response that is not a fill moves no position. -/
theorem Sound.receive {desk : Desk} (sound : desk.Sound) {response : OeResponse}
    (honest : desk.Honest (.receive response)) (once : desk.ClosesOnce (.receive response)) :
    (desk.next (.receive response)).Sound := by
  have fewer := sells_receive_le desk response
  have blueUnsold : (desk.next (.receive response)).sells SYM_BLUE = 0 := by
    have blue := fewer SYM_BLUE
    rw [sound.blueUnsold] at blue
    exact Nat.le_zero.mp blue
  have erased : ∀ (key id : UInt64) (order : WorkingOrder),
      (desk.working.erase key).lookup id = some order →
        desk.bot.orderMap.lookup id = some (order.symbol, order.side) := by
    intro key id order found
    exact sound.routed id order (FiniteMap.lookup_of_lookup_erase found)
  have covered : ∀ symbol, ((desk.next (.receive response)).sells symbol : Int) ≤
      max 0 (desk.position symbol) := fun symbol =>
    Int.le_trans (Int.ofNat_le.mpr (fewer symbol)) (sound.covered symbol)
  cases response with
  | ack orderId => exact ⟨sound.routed, sound.mmBlue, blueUnsold, covered⟩
  | other => exact ⟨sound.routed, sound.mmBlue, blueUnsold, covered⟩
  | reject orderId rejectReason => exact ⟨erased orderId, sound.mmBlue, blueUnsold, covered⟩
  | closed orderId =>
      refine ⟨erased orderId, ?_, blueUnsold, covered⟩
      intro id route found
      change (desk.bot.mmOrderMap.erase orderId).lookup id = some route at found
      exact sound.mmBlue id route (FiniteMap.lookup_of_lookup_erase found)
  | fill orderId qty price flags =>
      cases routed : desk.bot.orderMap.lookup orderId with
      | none => exact sound.receiveOtherFill routed qty price flags
      | some route =>
          obtain ⟨order, found, within⟩ := honest (by rw [routed]; rfl)
          exact sound.receiveArbFill found within price flags once

/-- Each allowed step keeps the desk sound. -/
theorem sound_next (desk : Desk) (action : BotAction) (sound : desk.Sound)
    (allowed : (Sized desk.bot action ∧ desk.Honest action) ∧ desk.ClosesOnce action) :
    (desk.next action).Sound := by
  obtain ⟨⟨sized, honest⟩, once⟩ := allowed
  cases action with
  | sendOrder symbol side qty price => exact sound.sendOrder price sized once
  | receive response => exact sound.receive honest once
  | book symbol side qty price => exact sound.book price once
  | callCreate amount result =>
      exact ⟨sound.routed, sound.mmBlue, sound.blueUnsold, sound.covered⟩
  | fillTimeout => exact ⟨sound.routed, sound.mmBlue, sound.blueUnsold, sound.covered⟩
  | setArbInProgress inProgress =>
      exact ⟨sound.routed, sound.mmBlue, sound.blueUnsold, sound.covered⟩
  | setArbStartTime time => exact ⟨sound.routed, sound.mmBlue, sound.blueUnsold, sound.covered⟩

/-! ### Runs -/

/-- In every run of creation arbs and forced unwinds whose steps close once, no symbol ever has
more to sell than its long position, and so no position that is not short can be sold short. -/
theorem covered_of_closesOnce (world : World) (bot : BotState) (stream : List OeResponse)
    (calls : List BotCall)
    (mmBlue : ∀ id route, bot.mmOrderMap.lookup id = some route → route.1 = SYM_BLUE)
    (honest : Along next Honest (opening bot) ((Run.new bot stream).perform world calls).log)
    (once : Along next ClosesOnce (opening bot) ((Run.new bot stream).perform world calls).log) :
    ∀ earlier, earlier <+: ((Run.new bot stream).perform world calls).log →
      (earlier.foldl next (opening bot)).Covered ∧
        ∀ symbol, 0 ≤ (earlier.foldl next (opening bot)).position symbol →
          0 ≤ (earlier.foldl next (opening bot)).position symbol -
            (earlier.foldl next (opening bot)).sells symbol := by
  have sized : Along next (fun desk action => Sized desk.bot action) (opening bot)
      ((Run.new bot stream).perform world calls).log :=
    (along_project (fun _ _ => rfl) _ _).mpr
      (Run.perform_extends trading_sized world _ calls).along_new
  intro earlier isPrefix
  have sound := invariant_everywhere sound_next (sound_opening mmBlue)
    ((sized.and honest).and once) earlier isPrefix
  refine ⟨sound.covered, ?_⟩
  intro symbol long
  have covered := sound.covered symbol
  rw [max_eq_right long] at covered
  omega

/-! ### Two runs -/

/-- The ten legs filled, and then what the exchange says of the UNDY sells. -/
def legsThen (undy : List OeResponse) : List OeResponse :=
  ((List.range 10).map fun leg => .fill (1001 + UInt64.ofNat leg) 5 90 .CLOSED) ++ undy

/-- The first UNDY sell is filled in two parts before its wait ends, and no second one is sent. -/
theorem covered_of_closesOnce_promptFill :
    (((Run.new Run.loggedInBot
        (legsThen [.fill 1011 2 100 .PARTIAL_FILL, .fill 1011 3 100 .CLOSED])).perform
      Run.secondsWorld [.tryCreationArb 3 Run.cheapDorms]).log.foldl next
        (opening Run.loggedInBot)).Covered :=
  (covered_of_closesOnce Run.secondsWorld Run.loggedInBot _ _
    (fun id route found => by simp [Run.loggedInBot] at found)
    (by decide +kernel) (by decide +kernel) _ List.prefix_rfl).1

/-- The first UNDY sell is acknowledged and rests, so the position is sold a second and a third
time; two late fills later it is short, with a third sell still working. -/
theorem retried_sells_oversell :
    let stream := legsThen
      [.ack 1011, .ack 1012, .fill 1011 5 100 .CLOSED, .fill 1012 5 100 .CLOSED]
    let log := ((Run.new Run.loggedInBot stream).perform Run.secondsWorld
      [.tryCreationArb 4 Run.cheapDorms, .waitForResponse 1012]).log
    Along next Honest (opening Run.loggedInBot) log ∧
      ¬ ((log.dropLast.foldl next (opening Run.loggedInBot)).Covered) ∧
      (log.foldl next (opening Run.loggedInBot)).position SYM_UNDY = -5 := by
  refine ⟨by decide +kernel, ?_, by decide +kernel⟩
  intro covered
  exact absurd (covered SYM_UNDY) (by decide +kernel)

end Desk

end HftAlgorithms
