/-
Module: HftAlgorithms.Proofs.RedemptionCycle
Purpose: The books of a redemption cycle, and of both cycles: the change of PnL is
  the money of the exchange fills exactly when the bookings that mirror `/create`
  or `/redeem` cancel.
Trusted boundary: none
Main exports: Run.redemptionBookings, Run.redemption_kept, Run.PnlIsCash,
  Run.cycles_pnlIsCash_iff
-/
import HftAlgorithms.Proofs.CreationCycle
import HftAlgorithms.Proofs.RedemptionLimits

namespace HftAlgorithms

open FiniteMap StateMachine

namespace Ledger

/-! ### Ledgers on the way -/

/-- The dorms still to be booked are as they began, those booked have gained the quantity. -/
structure BookingIn (bot : BotState) (qty : Nat) (symbols : List UInt32) (synthetic : ℚ)
    (ledger : Ledger) : Prop where
  kept : ledger.Kept bot.manager 0 synthetic
  redeeming : ledger.desk.Redeeming bot qty symbols
  undy : 0 ≤ ledger.desk.position SYM_UNDY

/-- The dorms still to be sold hold the quantity, and none of it is sold yet. -/
structure SellingDorms (bot : BotState) (qty : Nat) (symbols : List UInt32) (synthetic : ℚ)
    (ledger : Ledger) : Prop where
  kept : ledger.Kept bot.manager 0 synthetic
  held : ∀ symbol ∈ symbols, (qty : Int) ≤ ledger.desk.position symbol ∧
    ledger.desk.workingOn symbol .ask = 0

variable {bot : BotState} {qty symbol : UInt32} {symbols : List UInt32} {synthetic : ℚ}
  {ledger : Ledger}

/-- The UNDY buy. -/
theorem Kept.buyUndy (kept : ledger.Kept bot.manager 0 0)
    (idle : ledger.desk.Redeeming bot 0 arbSymbols) (flat : bot.manager.Flat)
    (small : qty.toNat ≤ 2 ^ 30) (price : Int32) :
    (ledger.next (.sendOrder SYM_UNDY .BUY qty price)).Kept bot.manager 0 0 := by
  have closed : ledger.desk.position SYM_UNDY = 0 :=
    (idle.pending SYM_UNDY List.mem_cons_self).trans
      ((congrArg Int32.toInt (flat SYM_UNDY Desk.undy_mem_symbolIds)).trans Int32.toInt_zero)
  have none := Desk.workingOn_of_nothing idle.nothing SYM_UNDY .bid
  exact ⟨kept.roomy.buy Desk.undy_mem_symbolIds (Or.inl rfl) (by omega) price,
    Or.inr ((kept.balanced closed.ge).silent rfl rfl)⟩

/-- UNDY is booked out. -/
theorem Kept.bookUndyOut (kept : ledger.Kept bot.manager 0 0)
    (bought : ledger.desk.Bought bot qty.toNat) (flat : bot.manager.Flat) (price : Int32) :
    (ledger.next (.book SYM_UNDY .SELL qty price)).BookingIn bot qty.toNat DORM_IDS
      (0 + Fill.booked ⟨SYM_UNDY, .SELL, qty, price⟩) := by
  have closed : (Desk.opening bot).position SYM_UNDY = 0 :=
    (congrArg Int32.toInt (flat SYM_UNDY Desk.undy_mem_symbolIds)).trans Int32.toInt_zero
  have held := bought.undy
  have noBids := Desk.workingOn_of_nothing bought.nothing SYM_UNDY .bid
  have noAsks := Desk.workingOn_of_nothing bought.nothing SYM_UNDY .ask
  have left : exactMove (ledger.desk.position SYM_UNDY) .SELL qty.toNat = 0 := by
    rw [exactMove, if_neg (by decide)]
    omega
  have moved := @Desk.position_book ledger.desk SYM_UNDY .SELL qty (by omega) (by omega) price
  refine ⟨kept.book (by omega) Desk.undy_mem_symbolIds (Or.inr rfl) (by omega) (by omega) price,
    Desk.redeeming_of_bookUndy _ bought.nothing bought.dorms qty price, ?_⟩
  exact (((moved SYM_UNDY).trans (if_pos rfl)).trans left).ge

/-- The next dorm is booked in. -/
theorem BookingIn.book (booking : ledger.BookingIn bot qty.toNat (symbol :: symbols) synthetic)
    (dorm : symbol ∈ DORM_IDS) (notAgain : symbol ∉ symbols) (flat : bot.manager.Flat)
    (small : qty.toNat ≤ 2 ^ 30) (price : Int32) :
    (ledger.next (.book symbol .BUY qty price)).BookingIn bot qty.toNat symbols
      (synthetic + Fill.booked ⟨symbol, .BUY, qty, price⟩) := by
  have member := SymbolManager.mem_symbolIds_of_dorm dorm
  have closed : (Desk.opening bot).position symbol = 0 :=
    (congrArg Int32.toInt (flat symbol member)).trans Int32.toInt_zero
  have here := booking.redeeming.pending symbol List.mem_cons_self
  have noBids := Desk.workingOn_of_nothing booking.redeeming.nothing symbol .bid
  have noAsks := Desk.workingOn_of_nothing booking.redeeming.nothing symbol .ask
  have raised : exactMove (ledger.desk.position symbol) .BUY qty.toNat = qty.toNat := by
    rw [exactMove, if_pos rfl]
    omega
  have moved := @Desk.position_book ledger.desk symbol .BUY qty (by omega) (by omega) price
  refine ⟨booking.kept.book booking.undy member (Or.inl rfl) (by omega) (by omega) price,
    booking.redeeming.book notAgain (by omega) (by omega) price, ?_⟩
  exact ((moved SYM_UNDY).trans (if_neg (Desk.dorm_ne_undy dorm).symm)).symm ▸ booking.undy

/-- The next dorm is sold. -/
theorem SellingDorms.sell
    (selling : ledger.SellingDorms bot qty.toNat (symbol :: symbols) synthetic)
    (dorm : symbol ∈ DORM_IDS) (notAgain : symbol ∉ symbols) (price : Int32) :
    (ledger.next (.sendOrder symbol .SELL qty price)).SellingDorms bot qty.toNat symbols
      synthetic := by
  have notUndy := Desk.dorm_ne_undy dorm
  obtain ⟨held, none⟩ := selling.held symbol List.mem_cons_self
  have roomy := @Desk.Roomy.sell 0 ledger.desk selling.kept.roomy 0 symbol qty
    (SymbolManager.mem_symbolIds_of_dorm dorm) (Nat.le_refl 0) (by omega) (Or.inl rfl)
    (fun _ => by omega) (fun isUndy => absurd isUndy notUndy) price
  refine ⟨selling.kept.sendOrder roomy fun both => notUndy both.1, ?_⟩
  intro other later
  obtain ⟨heldLater, noneLater⟩ := selling.held other (List.mem_cons_of_mem _ later)
  refine ⟨heldLater, Nat.le_zero.mp ((Desk.workingOn_sendOrder_elsewhere ledger.desk price ?_).trans
    noneLater.le)⟩
  rintro ⟨rfl, -⟩
  exact notAgain later

end Ledger

namespace Run

open Ledger

/-! ### The run of a redemption -/

/-- What `/redeem` is booked as: UNDY at the snapshot's ask, the dorms at the asks the bot sees. -/
def redemptionBookings (world : World) (snap : ArbSnapshot) : List Fill :=
  ⟨SYM_UNDY, .SELL, (redemptionQty snap).toUInt32, snap.undyBestAskPrice⟩ ::
    DORM_IDS.mapIdx (fun index symbol =>
      ⟨symbol, .BUY, (redemptionQty snap).toUInt32, world.bestAskPrice index symbol⟩)

section Redemption

variable {bot : BotState} {snap : ArbSnapshot} {synthetic : ℚ} (world : World)

theorem keptByReceive_kept :
    Stands.KeptByReceive Ledger.next Ledger.FillsOwn (fun _ => True)
      (fun ledger => ledger.Kept bot.manager 0 synthetic) := by
  intro ledger response kept _ fills
  exact ⟨trivial, kept.receive fills⟩

theorem keptByReceive_buyingUndy_kept {id : UInt64} {qty : Nat}
    (fits : (Desk.opening bot).position SYM_UNDY + qty < 2 ^ 31) :
    Stands.KeptByReceive Ledger.next Ledger.FillsOwn (fun _ => True)
      (fun ledger => ledger.desk.BuyingUndy bot id qty ∧ ledger.Kept bot.manager 0 synthetic) := by
  rintro ledger response ⟨buying, kept⟩ - fills
  exact ⟨trivial, buying.receive kept.roomy.routed fits (Desk.FillsOwn.upTo fills),
    kept.receive fills⟩

/-- The UNDY buy is sent, and its wait has returned. -/
theorem Cycle.buyUndy (flat : bot.manager.Flat)
    (small : (redemptionQty snap).toUInt32.toNat ≤ 2 ^ 30) (inbox : List OeResponse) :
    Cycle bot
      (fun ledger =>
        ledger.desk.BuyingUndy bot bot.nextOrderId (redemptionQty snap).toUInt32.toNat ∧
          ledger.Kept bot.manager 0 0)
      ((new bot inbox).buyUndy world snap).1 := by
  have closed : (Desk.opening bot).position SYM_UNDY = 0 :=
    (congrArg Int32.toInt (flat SYM_UNDY Desk.undy_mem_symbolIds)).trans Int32.toInt_zero
  have begun : Cycle bot
      (fun ledger => ledger.desk.Redeeming bot 0 arbSymbols ∧ ledger.Kept bot.manager 0 0)
      (new bot inbox) :=
    Stands.new (fun _ _ => rfl) trivial ⟨Desk.redeeming_opening bot, kept_opening flat⟩
  have flags : Stands.KeptByFlags Ledger.next Ledger.FillsOwn (fun _ => True)
      (fun ledger => ledger.desk.Redeeming bot 0 arbSymbols ∧ ledger.Kept bot.manager 0 0) := by
    rintro ledger action (⟨inProgress, rfl⟩ | ⟨time, rfl⟩) ⟨idle, kept⟩ - -
    · exact ⟨trivial, ⟨idle.nothing, idle.booked, idle.pending⟩, kept.idle rfl rfl rfl rfl⟩
    · exact ⟨trivial, ⟨idle.nothing, idle.booked, idle.pending⟩, kept.idle rfl rfl rfl rfl⟩
  have started := Stands.startArb flags ((new bot inbox).now world) begun
  have sent := @Stands.act _ _ _ _ _ _ _
    (fun ledger : Ledger => ledger.desk.BuyingUndy bot bot.nextOrderId
      (redemptionQty snap).toUInt32.toNat ∧ ledger.Kept bot.manager 0 0) _
    (.sendOrder SYM_UNDY .BUY (redemptionQty snap).toUInt32 snap.undyBestAskPrice) started (by
      intro ledger same both _ _
      change ledger.desk.bot = _ at same
      have nextId : ledger.desk.bot.nextOrderId = bot.nextOrderId := by
        rw [same]
        rfl
      refine ⟨trivial, ?_, both.2.buyUndy both.1 flat small _⟩
      rw [← nextId]
      exact both.1.buyUndy _)
  exact Stands.waitForResponse world (keptByReceive_buyingUndy_kept (by omega)) _ sent

/-- The bookings of a successful `/redeem`. -/
theorem Cycle.bookRedemption {qty : Int32} (flat : bot.manager.Flat)
    (small : qty.toUInt32.toNat ≤ 2 ^ 30) {run : Run} (unread : run.quoteReads = 0)
    (cycle : Cycle bot (fun ledger => ledger.desk.Bought bot qty.toUInt32.toNat ∧
      ledger.Kept bot.manager 0 0) run) :
    Cycle bot (BookingIn bot qty.toUInt32.toNat [] (bookedFlow
        (⟨SYM_UNDY, .SELL, qty.toUInt32, snap.undyBestAskPrice⟩ ::
          DORM_IDS.mapIdx fun index symbol =>
            ⟨symbol, .BUY, qty.toUInt32, world.bestAskPrice index symbol⟩)))
      (bookRedemption world qty run snap) := by
  have undy := @Stands.act _ _ _ _ _ _ _ (BookingIn bot qty.toUInt32.toNat DORM_IDS
      (0 + Fill.booked ⟨SYM_UNDY, .SELL, qty.toUInt32, snap.undyBestAskPrice⟩)) _
    (.book SYM_UNDY .SELL qty.toUInt32 snap.undyBestAskPrice) cycle
    fun ledger _ both _ _ => ⟨trivial, both.2.bookUndyOut both.1 flat _⟩
  have booked := @Cycle.bookEach bot _ (fun symbols synthetic ledger =>
      ledger.BookingIn bot qty.toUInt32.toNat symbols synthetic)
    .BUY qty.toUInt32 world.bestAskPrice
    (fun ledger symbol symbols synthetic price dorm notAgain booking =>
      booking.book dorm notAgain flat small price) _ undy
  have start : (run.act (.book SYM_UNDY .SELL qty.toUInt32 snap.undyBestAskPrice)).quoteReads = 0 :=
    unread
  simp only [start, zero_add] at booked
  rw [bookedFlow, List.map_cons, List.sum_cons]
  exact booked

/-- The ten sells. -/
theorem Cycle.fireSells {qty : Int32} (flat : bot.manager.Flat) {run : Run}
    (cycle : Cycle bot (BookingIn bot qty.toUInt32.toNat [] synthetic) run) :
    Cycle bot (fun ledger => ledger.Kept bot.manager 0 synthetic) (fireSells qty run snap).1 := by
  have held : Cycle bot (SellingDorms bot qty.toUInt32.toNat DORM_IDS synthetic) run := by
    refine Stands.weaken cycle fun ledger _ booking _ => ⟨booking.kept, fun symbol dorm => ?_⟩
    have closed : (Desk.opening bot).position symbol = 0 :=
      (congrArg Int32.toInt (flat symbol (SymbolManager.mem_symbolIds_of_dorm dorm))).trans
        Int32.toInt_zero
    have raised := booking.redeeming.booked symbol dorm List.not_mem_nil
    exact ⟨by omega, Desk.workingOn_of_nothing booking.redeeming.nothing symbol .ask⟩
  have fired := @Stands.fireEach _ _ _ _ _ _ _
    (fun symbols ledger => SellingDorms bot qty.toUInt32.toNat symbols synthetic ledger) .SELL
    qty.toUInt32 DormData.bestBidPrice snap
    (fun ledger symbol symbols price dorm notAgain selling _ _ =>
      ⟨trivial, selling.sell dorm notAgain price⟩) held
  exact Stands.weaken fired fun ledger _ selling _ => selling.kept

/-- A `wait_for_fill` that returns true leaves nothing of the UNDY buy to fill. -/
theorem Cycle.waitForFill_true {id : UInt64} {qty : Nat} {run : Run}
    (fits : (Desk.opening bot).position SYM_UNDY + qty < 2 ^ 31)
    (cycle : Cycle bot
      (fun ledger => ledger.desk.BuyingUndy bot id qty ∧ ledger.Kept bot.manager 0 0) run)
    (returned : (run.waitForFill world id).2 = true) :
    Cycle bot (fun ledger => ledger.desk.Bought bot qty ∧ ledger.Kept bot.manager 0 0)
      (run.waitForFill world id).1 := by
  refine Stands.waitForFill_true world (keptByReceive_buyingUndy_kept fits) ?_ cycle returned
  rintro ledger filled price ⟨buying, kept⟩ - fills
  exact ⟨trivial, buying.filled kept.roomy.routed fits fills, kept.receive fills⟩

theorem buyUndy_extends (run : Run) :
    Extends (fun _ action => BotState.syntheticFills action = []) run
      (run.buyUndy world snap).1 := by
  have started : Extends (fun _ action => BotState.syntheticFills action = []) run
      (((run.act (.setArbInProgress true)).tick 1).act (.setArbStartTime (run.now world))) :=
    ((Extends.act rfl).trans (Extends.tick _ 1)).trans (Extends.act rfl)
  exact (started.trans (Extends.act rfl)).trans
    (waitForResponse_extends unwinding_books_nothing world _ _)

theorem waitForFill_extends (run : Run) (id : UInt64) :
    Extends (fun _ action => BotState.syntheticFills action = []) run
      (run.waitForFill world id).1 :=
  Extends.trans (Extends.of_eq rfl rfl) (Extends.foldl (fun _ _ => Extends.act rfl) _ _)

/-- From the confirmed fill on. -/
theorem Cycle.redeemAndSell (world : EtfWorld) {inbox : List OeResponse} {run : Run}
    (flat : bot.manager.Flat) (small : (redemptionQty snap).toUInt32.toNat ≤ 2 ^ 30)
    (unread : run.quoteReads = 0)
    (reached : Extends (fun _ action => BotState.syntheticFills action = []) (new bot inbox) run)
    (booked : (redeemAndSell world (redemptionQty snap) run snap).1.Booked)
    (cycle : Cycle bot (fun ledger => ledger.desk.Bought bot (redemptionQty snap).toUInt32.toNat ∧
      ledger.Kept bot.manager 0 0) run) :
    Cycle bot (fun ledger => ledger.Kept bot.manager 0
        (bookedFlow (redemptionBookings world.toWorld snap)))
      (redeemAndSell world (redemptionQty snap) run snap).1 := by
  obtain ⟨counted, countedEq⟩ : ∃ counted : Run, counted =
    { run with etfCalls := run.etfCalls + 1 } := ⟨_, rfl⟩
  have asked : Extends (fun _ action => BotState.syntheticFills action = []) run counted := by
    rw [countedEq]
    exact Extends.of_eq rfl rfl
  have reads : counted.quoteReads = 0 := by
    rw [countedEq]
    exact unread
  have full : Cycle bot (fun ledger =>
      ledger.desk.Bought bot (redemptionQty snap).toUInt32.toNat ∧
        ledger.Kept bot.manager 0 0) counted := by
    rw [countedEq]
    exact Stands.of_eq cycle rfl rfl
  rw [Run.redeemAndSell] at booked ⊢
  dsimp only at booked ⊢
  rw [← countedEq] at booked ⊢
  split at booked
  · exact absurd booked (not_booked (reached.trans asked))
  · rename_i agreed
    rw [if_neg agreed]
    have redeemed := @Cycle.bookRedemption bot snap world.toWorld _ flat small counted reads full
    exact Stands.collect world.toWorld keptByReceive_kept _ (Cycle.fireSells flat redeemed)

/-- A redemption that starts flat and gets to its bookings balances. -/
theorem redemption_kept (world : EtfWorld) (inbox : List OeResponse) (flat : bot.manager.Flat)
    (taken : SnapshotOf bot snap)
    (booked : ((new bot inbox).tryRedemptionArb world snap).1.Booked) :
    Cycle bot (fun ledger => ledger.Kept bot.manager 0
        (bookedFlow (redemptionBookings world.toWorld snap)))
      ((new bot inbox).tryRedemptionArb world snap).1 := by
  rw [tryRedemptionArb] at booked ⊢
  split at booked
  · exact absurd booked (not_booked (Extends.refl _))
  · rename_i notStopped
    have starts : (new bot inbox).startsRedemption snap = true := not_not.mp notStopped
    have positive := redemptionQty_pos_of_starts starts
    have closed : (Desk.opening bot).position SYM_UNDY = 0 :=
      (congrArg Int32.toInt (flat SYM_UNDY Desk.undy_mem_symbolIds)).trans Int32.toInt_zero
    have small : (redemptionQty snap).toUInt32.toNat ≤ 2 ^ 30 := by
      have below := redemptionQty_le taken (within_of_flat flat)
      have whole := toNat_toUInt32_of_pos positive
      omega
    have bought := @Cycle.buyUndy bot snap world.toWorld flat small inbox
    have sent := @buyUndy_extends snap world.toWorld (new bot inbox)
    have reads : ((new bot inbox).buyUndy world.toWorld snap).1.quoteReads = 0 :=
      quoteReads_receive _ _
    rw [if_neg notStopped]
    dsimp only at booked ⊢
    generalize (new bot inbox).buyUndy world.toWorld snap = waited at booked bought sent reads ⊢
    have both := sent.trans (@waitForFill_extends world.toWorld waited.1 bot.nextOrderId)
    split at booked
    · exact absurd booked (not_booked (sent.trans (Extends.act rfl)))
    · rename_i acked
      rw [if_neg acked]
      split at booked
      · exact absurd booked (not_booked (both.trans (Extends.act rfl)))
      · rename_i filled
        rw [if_neg filled]
        have full := Cycle.waitForFill_true world.toWorld (by omega) bought (not_not.mp filled)
        have fullReads : (waited.1.waitForFill world.toWorld bot.nextOrderId).1.quoteReads = 0 :=
          (quoteReads_receive _ _).trans reads
        exact Cycle.redeemAndSell world flat small fullReads both booked full

/-! ### Exactly when PnL is cash -/

/-- The exchange fills of a run. -/
def exchanged (bot : BotState) (run : Run) : List Fill :=
  emitted BotState.act BotState.exchangeFills bot run.log

/-- The change of PnL is the money of the exchange fills. -/
def PnlIsCash (bot : BotState) (run : Run) : Prop :=
  run.state.manager.getTotalPnl - bot.manager.getTotalPnl = cashFlow (exchanged bot run)

/-- What the 32-bit products of `on_fill` leave out. -/
def wrapped (fills : List Fill) : ℚ := cashFlow fills - bookedFlow fills

/-- Where the books balance and nothing is open, PnL has moved by what was booked. -/
theorem Cycle.pnlIsCash_iff {run : Run} (flat : bot.manager.Flat)
    (fills : Along Desk.next Desk.FillsOwn (Desk.opening bot) run.log)
    (flatAgain : run.state.manager.Flat)
    (cycle : Cycle bot (fun ledger => ∃ owed, ledger.Kept bot.manager owed synthetic) run) :
    PnlIsCash bot run ↔ synthetic = wrapped (exchanged bot run) := by
  obtain ⟨-, owed, kept⟩ := cycle.assured ((along_fillsOwn_iff bot run.log).mpr fills)
  have state : (run.log.foldl Ledger.next (Ledger.opening bot)).desk.bot = run.state := cycle.state
  have notShort : 0 ≤ (run.log.foldl Ledger.next (Ledger.opening bot)).desk.position SYM_UNDY := by
    rw [Desk.position, state, flatAgain SYM_UNDY Desk.undy_mem_symbolIds]
    exact Int32.toInt_zero.ge
  have balance := (kept.balanced notShort).balance
  rw [state, SymbolManager.cashBalance_of_flat flatAgain, SymbolManager.cashBalance_of_flat flat,
    exchange_foldl] at balance
  change run.state.manager.totalPnl = bot.manager.totalPnl + bookedFlow (exchanged bot run) +
    synthetic at balance
  rw [PnlIsCash, wrapped, SymbolManager.getTotalPnl, SymbolManager.getTotalPnl, balance]
  constructor
  · intro cash
    linarith
  · intro cancels
    linarith

theorem bookedFlow_of_valid {fills : List Fill} (valid : ∀ fill ∈ fills, fill.Valid) :
    bookedFlow fills = cashFlow fills :=
  congrArg List.sum (List.map_congr_left fun fill member =>
    SymbolManager.booked_of_valid (valid fill member))

/-- Products that fit leave nothing out. -/
theorem wrapped_eq_zero {fills : List Fill} (valid : ∀ fill ∈ fills, fill.Valid) :
    wrapped fills = 0 := by
  rw [wrapped, bookedFlow_of_valid valid, sub_self]

/-- Fills of one quantity on one side come to that many times the sum of their prices. -/
theorem cashFlow_mapIdx (side : Side) (qty : UInt32) (price : Nat → UInt32 → Int32)
    (symbols : List UInt32) :
    cashFlow (symbols.mapIdx fun index symbol => ⟨symbol, side, qty, price index symbol⟩) =
      (if side = .SELL then 1 else -1) *
        ((symbols.mapIdx fun index symbol => (price index symbol).toInt).sum : Int) *
        qty.toNat := by
  induction symbols generalizing price with
  | nil => simp [cashFlow]
  | cons symbol symbols inductionHypothesis =>
      have later := inductionHypothesis fun index => price (index + 1)
      rw [cashFlow] at later ⊢
      rw [List.mapIdx_cons, List.mapIdx_cons, List.map_cons, List.sum_cons, List.sum_cons, later,
        Fill.cash]
      push_cast
      split <;> ring

theorem toNat_ne_zero_of_pos {qty : Int32} (positive : qty > 0) :
    (qty.toUInt32.toNat : ℚ) ≠ 0 := by
  have whole := toNat_toUInt32_of_pos positive
  have value := Int32.lt_iff_toInt_lt.mp positive
  rw [Int32.toInt_zero] at value
  exact_mod_cast (show qty.toUInt32.toNat ≠ 0 by omega)

/-- Where their products fit, the bookings of `/create` cancel if and only if the bids that the bot
sees add up to the UNDY bid. -/
theorem creationBookings_cancel_iff (world : World) (positive : creationQty snap > 0)
    (valid : ∀ fill ∈ creationBookings world snap, fill.Valid) :
    bookedFlow (creationBookings world snap) = 0 ↔
      (DORM_IDS.mapIdx fun index symbol => (world.bestBidPrice index symbol).toInt).sum =
        snap.undyBestBidPrice.toInt := by
  have dorms := cashFlow_mapIdx .SELL (creationQty snap).toUInt32
    (fun index symbol => world.bestBidPrice index symbol) DORM_IDS
  have total : bookedFlow (creationBookings world snap) =
      (((DORM_IDS.mapIdx fun index symbol => (world.bestBidPrice index symbol).toInt).sum : Int) -
        snap.undyBestBidPrice.toInt : ℚ) * (creationQty snap).toUInt32.toNat := by
    rw [bookedFlow_of_valid valid, creationBookings, cashFlow, List.map_append, List.sum_append,
      List.map_singleton, List.sum_singleton]
    rw [cashFlow] at dorms
    rw [dorms, Fill.cash, if_pos rfl, if_neg (show ¬ Side.BUY = Side.SELL by decide)]
    ring
  rw [total, mul_eq_zero, or_iff_left (toNat_ne_zero_of_pos positive), sub_eq_zero]
  exact_mod_cast Iff.rfl

/-- Where their products fit, the bookings of `/redeem` cancel if and only if the asks that the bot
sees add up to the UNDY ask. -/
theorem redemptionBookings_cancel_iff (world : World) (positive : redemptionQty snap > 0)
    (valid : ∀ fill ∈ redemptionBookings world snap, fill.Valid) :
    bookedFlow (redemptionBookings world snap) = 0 ↔
      (DORM_IDS.mapIdx fun index symbol => (world.bestAskPrice index symbol).toInt).sum =
        snap.undyBestAskPrice.toInt := by
  have dorms := cashFlow_mapIdx .BUY (redemptionQty snap).toUInt32
    (fun index symbol => world.bestAskPrice index symbol) DORM_IDS
  have total : bookedFlow (redemptionBookings world snap) =
      (snap.undyBestAskPrice.toInt - ((DORM_IDS.mapIdx fun index symbol =>
        (world.bestAskPrice index symbol).toInt).sum : Int) : ℚ) *
          (redemptionQty snap).toUInt32.toNat := by
    rw [bookedFlow_of_valid valid, redemptionBookings, cashFlow, List.map_cons, List.sum_cons]
    rw [cashFlow] at dorms
    rw [dorms, Fill.cash, if_pos rfl, if_neg (show ¬ Side.BUY = Side.SELL by decide)]
    ring
  rw [total, mul_eq_zero, or_iff_left (toNat_ne_zero_of_pos positive), sub_eq_zero, eq_comm]
  exact_mod_cast Iff.rfl

theorem creationQty_pos_of_booked {world : World} {fuel : Nat} {inbox : List OeResponse}
    (booked : ((new bot inbox).tryCreationArb world fuel snap).1.Booked) :
    creationQty snap > 0 := by
  by_cases starts : (new bot inbox).startsCreation snap = true
  · exact creationQty_pos_of_starts starts
  · rw [tryCreationArb, if_pos starts] at booked
    exact absurd booked (not_booked (Extends.refl _))

theorem redemptionQty_pos_of_booked {world : EtfWorld} {inbox : List OeResponse}
    (booked : ((new bot inbox).tryRedemptionArb world snap).1.Booked) :
    redemptionQty snap > 0 := by
  by_cases starts : (new bot inbox).startsRedemption snap = true
  · exact redemptionQty_pos_of_starts starts
  · rw [tryRedemptionArb, if_pos starts] at booked
    exact absurd booked (not_booked (Extends.refl _))

/-- A creation or a redemption that starts flat, is booked, and is flat again when some further
waits have returned: its PnL is the money of its exchange fills if and only if the bookings come to
what the products of the exchange fills leave out.  Where all products fit, that is if and only if
the quotes of the dorms add up to the UNDY price of the snapshot. -/
theorem cycles_pnlIsCash_iff (flat : bot.manager.Flat) (taken : SnapshotOf bot snap) :
    (∀ world fuel inbox ids,
      let tried := ((new bot inbox).tryCreationArb world fuel snap).1
      let cycle := (tried.collect world ids).1
      tried.Booked → Along Desk.next Desk.FillsOwn (Desk.opening bot) cycle.log →
        cycle.state.manager.Flat →
        (PnlIsCash bot cycle ↔
          bookedFlow (creationBookings world snap) = wrapped (exchanged bot cycle)) ∧
        ((∀ fill ∈ creationBookings world snap ++ exchanged bot cycle, fill.Valid) →
          (PnlIsCash bot cycle ↔
            (DORM_IDS.mapIdx fun index symbol => (world.bestBidPrice index symbol).toInt).sum =
              snap.undyBestBidPrice.toInt))) ∧
    ∀ world inbox ids,
      let tried := ((new bot inbox).tryRedemptionArb world snap).1
      let cycle := (tried.collect world.toWorld ids).1
      tried.Booked → Along Desk.next Desk.FillsOwn (Desk.opening bot) cycle.log →
        cycle.state.manager.Flat →
        (PnlIsCash bot cycle ↔
          bookedFlow (redemptionBookings world.toWorld snap) = wrapped (exchanged bot cycle)) ∧
        ((∀ fill ∈ redemptionBookings world.toWorld snap ++ exchanged bot cycle, fill.Valid) →
          (PnlIsCash bot cycle ↔
            (DORM_IDS.mapIdx fun index symbol => (world.bestAskPrice index symbol).toInt).sum =
              snap.undyBestAskPrice.toInt)) := by
  constructor
  · intro world fuel inbox ids tried cycle booked fills flatAgain
    have sold := Stands.collect world keptByReceive_sold ids
      (creation_sold world fuel inbox flat taken booked)
    have cash := Cycle.pnlIsCash_iff flat fills flatAgain (Stands.weaken sold (by
      rintro ledger - ⟨attempts, -, selling⟩ -
      exact ⟨_, selling.kept⟩))
    refine ⟨cash, fun valid => ?_⟩
    rw [cash, wrapped_eq_zero fun fill member => valid fill (List.mem_append_right _ member)]
    exact creationBookings_cancel_iff world (creationQty_pos_of_booked booked)
      fun fill member => valid fill (List.mem_append_left _ member)
  · intro world inbox ids tried cycle booked fills flatAgain
    have kept := Stands.collect world.toWorld keptByReceive_kept ids
      (redemption_kept world inbox flat taken booked)
    have cash := Cycle.pnlIsCash_iff flat fills flatAgain
      (Stands.weaken kept fun ledger _ kept _ => ⟨0, kept⟩)
    refine ⟨cash, fun valid => ?_⟩
    rw [cash, wrapped_eq_zero fun fill member => valid fill (List.mem_append_right _ member)]
    exact redemptionBookings_cancel_iff world.toWorld (redemptionQty_pos_of_booked booked)
      fun fill member => valid fill (List.mem_append_left _ member)

/-! ### Runs -/

/-- The legs and the UNDY sell, each filled at once. -/
def wholeCreation : List OeResponse :=
  (loggedInBot.legs.map fun leg => .fill leg.1 5 90 .CLOSED) ++ [.fill 1011 5 1000 .CLOSED]

/-- With every dorm bid at 100 the bids add up to the 1000 that UNDY is booked at. -/
theorem cycles_pnlIsCash_wholeCreation :
    PnlIsCash loggedInBot
      (((new loggedInBot wholeCreation).tryCreationArb secondsWorld 3 cheapDorms).1.collect
        secondsWorld []).1 := by
  refine ((cycles_pnlIsCash_iff (by decide +kernel) ⟨by decide +kernel, by decide +kernel⟩).1
    secondsWorld 3 wholeCreation [] ?_ (by decide +kernel) (by decide +kernel)).1.mpr ?_
  · exact ⟨.book 3 .SELL 5 100, by decide +kernel, by decide⟩
  · decide +kernel

/-- With the bids at 99 they do not: 500 is made, and 450 is booked. -/
theorem creation_books_less_than_cash :
    let world := { secondsWorld with bestBidPrice := fun _ _ => 99 }
    let cycle := ((new loggedInBot wholeCreation).tryCreationArb world 3 cheapDorms).1
    loggedInBot.manager.Flat ∧ SnapshotOf loggedInBot cheapDorms ∧ cycle.Booked ∧
      Along Desk.next Desk.FillsOwn (Desk.opening loggedInBot) cycle.log ∧
      cycle.state.manager.Flat ∧
      cashFlow (exchanged loggedInBot cycle) = 500 ∧
      cycle.state.manager.getTotalPnl - loggedInBot.manager.getTotalPnl = 450 := by
  refine ⟨by decide +kernel, ⟨by decide +kernel, by decide +kernel⟩,
    ⟨.book 3 .SELL 5 99, by decide +kernel, by decide⟩, ?_⟩
  decide +kernel

end Redemption

end Run

end HftAlgorithms
