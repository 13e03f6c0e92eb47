/-
Module: HftAlgorithms.Proofs.LoopRuns
Purpose: A run of `run_with_mm` as the log of what it did: every part of the loop
  goes on from where it starts by atomic actions, arb and market maker alike.
Trusted boundary: none
Main exports: LoopRun.Extends, LoopRun.Extends.absorb, LoopRun.runWithMm_extends,
  LoopRun.runWithMm_state, MmState.requests, MmState.newOrders,
  BotState.maps_receive
-/
import HftAlgorithms.Arb.MarketMaker
import HftAlgorithms.Proofs.AbandonedLegs
import HftAlgorithms.Proofs.CreationLimits

namespace HftAlgorithms

open StateMachine

namespace MmState

/-- The bot's own actions change only the bot. -/
theorem foldl_bot (actions : List BotAction) (state : MmState) :
    (actions.map .bot).foldl act state =
      { state with bot := actions.foldl BotState.act state.bot } := by
  induction actions generalizing state with
  | nil => rfl
  | cons action actions inductionHypothesis => exact inductionHypothesis _

theorem along_bot {allowed : MmState → LoopAction → Prop} {allowedBot : BotState → BotAction → Prop}
    (each : ∀ state action, allowedBot state.bot action → allowed state (.bot action))
    {state : MmState} {actions : List BotAction}
    (along : Along BotState.act allowedBot state.bot actions) :
    Along act allowed state (actions.map .bot) := by
  induction actions generalizing state with
  | nil => trivial
  | cons action actions inductionHypothesis =>
      exact ⟨each state action along.1, inductionHypothesis along.2⟩

end MmState

/-! ### What a response takes out of the maps -/

/-- The id whose order the response ends on the exchange. -/
def OeResponse.ended : OeResponse → Option UInt64
  | .fill orderId _ _ flags => if flags = .CLOSED then some orderId else none
  | .closed orderId => some orderId
  | .ack _ | .reject _ _ | .other => none

/-- The callbacks add no entry, and erase at most that of the order the response ends. -/
theorem BotState.maps_receive (bot : BotState) (response : OeResponse) :
    FiniteMap.ErasesAtMost response.ended bot.orderMap (bot.act (.receive response)).orderMap ∧
      FiniteMap.ErasesAtMost response.ended bot.mmOrderMap
        (bot.act (.receive response)).mmOrderMap := by
  have erased : ∀ (map : OrderMap) (orderId : UInt64) (qty : UInt32) (price : Int32)
      (flags : FillFlags),
      FiniteMap.ErasesAtMost (OeResponse.fill orderId qty price flags).ended map
        (if flags = .CLOSED then map.erase orderId else map) := by
    intro map orderId qty price flags
    split
    · rename_i closes
      exact Or.inr ⟨orderId, if_pos closes, rfl⟩
    · exact Or.inl rfl
  cases response with
  | ack orderId => exact ⟨Or.inl rfl, Or.inl rfl⟩
  | reject orderId reason => exact ⟨Or.inl rfl, Or.inl rfl⟩
  | closed orderId => exact ⟨Or.inl rfl, Or.inr ⟨orderId, rfl, rfl⟩⟩
  | other => exact ⟨Or.inl rfl, Or.inl rfl⟩
  | fill orderId qty price flags =>
      cases arb : bot.orderMap.lookup orderId with
      | some route =>
          obtain ⟨-, orders, mmOrders⟩ := receive_arbFill qty price flags arb
          rw [orders, mmOrders]
          exact ⟨erased _ orderId qty price flags, Or.inl rfl⟩
      | none =>
          cases mm : bot.mmOrderMap.lookup orderId with
          | some route =>
              obtain ⟨-, orders, mmOrders⟩ := receive_mmFill qty price flags arb mm
              rw [orders, mmOrders]
              exact ⟨Or.inl rfl, erased _ orderId qty price flags⟩
          | none =>
              obtain ⟨-, orders, mmOrders⟩ := receive_strangeFill qty price flags arb mm
              exact ⟨Or.inl orders, Or.inl mmOrders⟩

/-! ### What the loop sends -/

/-- The order that a request asks for, by its id, symbol and side. -/
def OeRequest.newOrder? : OeRequest → Option (UInt64 × UInt32 × Side)
  | .newOrder _ orderId symbol side _ _ _ => some (orderId, symbol, side)
  | .deleteOrder _ _ | .modifyOrder _ _ _ _ _ => none

namespace MmState

/-- The request that an action writes. -/
def requests (state : MmState) : LoopAction → List OeRequest
  | .bot action => state.bot.requests action
  | .deleteOrder id => [.deleteOrder state.bot.client.header.2 id]
  | .sendMmOrder quote qty price =>
      [(state.bot.client.sendNewOrderNoWait (state.mmOrderId + 1) SYM_BLUE quote.side qty price).2]
  | .forget _ | .setLastBlueMid _ => []

/-- The order that an action sends. -/
def newOrders (state : MmState) (action : LoopAction) : List (UInt64 × UInt32 × Side) :=
  (state.requests action).filterMap OeRequest.newOrder?

@[simp] theorem newOrders_sendOrder (state : MmState) (symbol : UInt32) (side : Side)
    (qty : UInt32) (price : Int32) :
    state.newOrders (.bot (.sendOrder symbol side qty price)) =
      [(state.bot.nextOrderId, symbol, side)] := rfl

@[simp] theorem newOrders_sendMmOrder (state : MmState) (quote : MmQuote) (qty : UInt32)
    (price : Int32) :
    state.newOrders (.sendMmOrder quote qty price) =
      [(state.mmOrderId + 1, SYM_BLUE, quote.side)] := rfl

end MmState

namespace Run

/-- A redemption goes on from where it starts. -/
theorem tryRedemptionArb_extends (world : EtfWorld) (run : Run) (snap : ArbSnapshot) :
    Extends (fun _ _ => True) run (run.tryRedemptionArb world snap).1 := by
  have started : Extends (fun _ _ => True) run
      (((run.act (.setArbInProgress true)).tick 1).act
        (.setArbStartTime (run.now world.toWorld))) :=
    ((Extends.act trivial).trans (Extends.tick _ 1)).trans (Extends.act trivial)
  have bought : Extends (fun _ _ => True) run (run.buyUndy world.toWorld snap).1 :=
    (started.trans (Extends.act trivial)).trans
      (waitForResponse_extends creating_always.toUnwinding world.toWorld _ _)
  rw [tryRedemptionArb]
  split
  · exact Extends.refl run
  · dsimp only
    split
    · exact bought.trans (Extends.act trivial)
    · have filled : Extends (fun _ _ => True) run ((run.buyUndy world.toWorld snap).1.waitForFill
          world.toWorld run.state.nextOrderId).1 :=
        bought.trans (Extends.trans (Extends.of_eq rfl rfl)
          (Extends.foldl (fun _ _ => Extends.act trivial) _ _))
      split
      · exact filled.trans (Extends.act trivial)
      · refine filled.trans ?_
        generalize (((run.buyUndy world.toWorld snap).1.waitForFill world.toWorld
          run.state.nextOrderId).1) = held
        have called : Extends (fun _ _ => True) held { held with etfCalls := held.etfCalls + 1 } :=
          Extends.of_eq rfl rfl
        by_cases failed : ¬ (world.redeem held.etfCalls (redemptionQty snap)).success = true
        · rw [redeemAndSell, if_pos failed]
          exact called
        · exact (called.trans (Extends.act trivial)).trans
            (redeemAndSell_extends world _ snap failed)

end Run

namespace LoopRun

open Run (creating_always)

/-- A run of the loop goes on to another by actions that are all `allowed` where they are taken. -/
def Extends (allowed : MmState → LoopAction → Prop) (loop later : LoopRun) : Prop :=
  ∃ added, later.log = loop.log ++ added ∧ later.state = added.foldl MmState.act loop.state ∧
    Along MmState.act allowed loop.state added

variable {allowed : MmState → LoopAction → Prop}

namespace Extends

theorem of_eq {loop later : LoopRun} (sameState : later.state = loop.state)
    (sameLog : later.log = loop.log) : Extends allowed loop later :=
  ⟨[], by rw [sameLog, List.append_nil], sameState, trivial⟩

theorem refl (loop : LoopRun) : Extends allowed loop loop := of_eq rfl rfl

theorem trans {first second third : LoopRun} (one : Extends allowed first second)
    (two : Extends allowed second third) : Extends allowed first third :=
  exists_added_trans one two

theorem act {loop : LoopRun} {action : LoopAction} (here : allowed loop.state action) :
    Extends allowed loop (loop.act action) :=
  ⟨[action], rfl, rfl, here, trivial⟩

/-- A loop over a list extends a run when every turn does. -/
theorem foldl {ι : Type*} {turn : LoopRun → ι → LoopRun}
    (step : ∀ loop item, Extends allowed loop (turn loop item)) (items : List ι) (loop : LoopRun) :
    Extends allowed loop (items.foldl turn loop) := by
  induction items generalizing loop with
  | nil => exact refl loop
  | cons item items inductionHypothesis =>
      exact (step loop item).trans (inductionHypothesis (turn loop item))

/-- What a function of the arbs did to the bot is part of the loop's run. -/
theorem absorb {allowedBot : BotState → BotAction → Prop}
    (each : ∀ state action, allowedBot state.bot action → allowed state (.bot action))
    {loop : LoopRun} {run : Run} (reached : Run.Extends allowedBot loop.toRun run) :
    Extends allowed loop (loop.absorb run) := by
  obtain ⟨added, grown, final, along⟩ := reached
  refine ⟨added.map .bot, ?_, ?_, MmState.along_bot each along⟩
  · change loop.log ++ run.log.map .bot = _
    rw [grown]
    rfl
  · rw [MmState.foldl_bot]
    change { loop.state with bot := run.state } = _
    rw [final]
    rfl

end Extends

/-! ### Every part of the loop -/

/-- Nothing is asked of the actions. -/
def anything : MmState → LoopAction → Prop := fun _ _ => True

section Parts

variable (world : World)

theorem absorb_extends {loop : LoopRun} {run : Run}
    (reached : Run.Extends (fun _ _ => True) loop.toRun run) :
    Extends anything loop (loop.absorb run) :=
  Extends.absorb (fun _ _ _ => trivial) reached

theorem waitForResponse_extends (loop : LoopRun) (id : UInt64) :
    Extends anything loop (loop.waitForResponse world id) :=
  absorb_extends (Run.waitForResponse_extends creating_always.toUnwinding world _ id)

theorem deleteOrder_extends (loop : LoopRun) (id : UInt64) :
    Extends anything loop (loop.deleteOrder world id) :=
  (Extends.act trivial).trans (waitForResponse_extends world _ id)

theorem safeDelete_extends (loop : LoopRun) (quote : MmQuote) :
    Extends anything loop (loop.safeDelete world quote) := by
  rw [safeDelete]
  split
  · exact Extends.refl loop
  · exact (deleteOrder_extends world loop _).trans (Extends.act trivial)

theorem sendMmOrder_extends (loop : LoopRun) (quote : MmQuote) (qty : UInt32) (price : Int32) :
    Extends anything loop (loop.sendMmOrder world quote qty price) :=
  (Extends.act trivial).trans (waitForResponse_extends world _ _)

theorem guardBid_extends (mmLimit bluePos : Int32) (loop : LoopRun) :
    Extends anything loop (loop.guardBid world mmLimit bluePos) := by
  rw [guardBid]
  split
  · exact safeDelete_extends world loop .bid
  · exact Extends.refl loop

theorem guardAsk_extends (mmLimit bluePos : Int32) (loop : LoopRun) :
    Extends anything loop (loop.guardAsk world mmLimit bluePos) := by
  rw [guardAsk]
  split
  · exact safeDelete_extends world loop .ask
  · exact Extends.refl loop

theorem flattenShort_extends (bluePos : Int32) (loop : LoopRun) :
    Extends anything loop (loop.flattenShort world bluePos) := by
  have readQuote : Extends anything loop loop.quoted := Extends.of_eq rfl rfl
  rw [flattenShort]
  dsimp only
  split
  · split
    · exact readQuote.trans (sendMmOrder_extends world _ _ _ _)
    · exact readQuote
  · exact Extends.refl loop

theorem forgetFlatten_extends (bluePos : Int32) (loop : LoopRun) :
    Extends anything loop (loop.forgetFlatten bluePos) := by
  rw [forgetFlatten]
  split
  · exact Extends.act trivial
  · exact Extends.refl loop

theorem quoteBid_extends (mmLimit : Int32) (blueTick : UInt32) (mid : Int32) (loop : LoopRun) :
    Extends anything loop (loop.quoteBid world mmLimit blueTick mid) := by
  rw [quoteBid]
  split
  · exact sendMmOrder_extends world loop _ _ _
  · exact Extends.refl loop

theorem quoteAsk_extends (mmLimit : Int32) (blueTick : UInt32) (mid : Int32) (loop : LoopRun) :
    Extends anything loop (loop.quoteAsk world mmLimit blueTick mid) := by
  rw [quoteAsk]
  split
  · exact sendMmOrder_extends world loop _ _ _
  · exact Extends.refl loop

theorem quoteAround_extends (mmLimit : Int32) (blueTick : UInt32) (mid : Int32) (loop : LoopRun) :
    Extends anything loop (loop.quoteAround world mmLimit blueTick mid) := by
  have deleted := (safeDelete_extends world loop .bid).trans (safeDelete_extends world _ .ask)
  have quoted := (deleted.trans (quoteBid_extends world mmLimit blueTick mid _)).trans
    (quoteAsk_extends world mmLimit blueTick mid _)
  exact quoted.trans (Extends.act trivial)

theorem requote_extends (mmLimit : Int32) (blueTick : UInt32) (loop : LoopRun) :
    Extends anything loop (loop.requote world mmLimit blueTick) := by
  have readQuotes : Extends anything loop loop.quoted.quoted := Extends.of_eq rfl rfl
  rw [requote]
  dsimp only
  split
  · split
    · exact readQuotes.trans (quoteAround_extends world mmLimit blueTick _ _)
    · exact readQuotes
  · exact readQuotes

theorem blueMarketMaker_extends (mmLimit : Int32) (blueTick : UInt32) (loop : LoopRun) :
    Extends anything loop (loop.blueMarketMaker world mmLimit blueTick) := by
  have guarded := (guardBid_extends world mmLimit (loop.getPosition SYM_BLUE) loop).trans
    (guardAsk_extends world mmLimit (loop.getPosition SYM_BLUE) _)
  have flattened := guarded.trans (flattenShort_extends world (loop.getPosition SYM_BLUE) _)
  have forgotten := flattened.trans (forgetFlatten_extends (loop.getPosition SYM_BLUE) _)
  exact forgotten.trans (requote_extends world mmLimit blueTick _)

theorem flattenSymbol_extends (loop : LoopRun) (symbol : UInt32) :
    Extends anything loop (loop.flattenSymbol world symbol) := by
  have readQuote : Extends anything loop loop.quoted := Extends.of_eq rfl rfl
  rw [flattenSymbol]
  generalize (if loop.getPosition symbol > 0 then loop.bestBid world symbol
    else loop.bestAsk world symbol) = price
  dsimp only
  split
  · exact Extends.refl loop
  · split
    · exact readQuote
    · exact absorb_extends (Run.Extends.trans (Run.Extends.of_eq rfl rfl)
        (Run.Extends.trans (Run.Extends.act trivial)
          (Run.waitForResponse_extends creating_always.toUnwinding world _ _)))

end Parts

section Loop

variable (world : LoopWorld)

theorem arbStep_extends (fuel : Nat) (loop : LoopRun) :
    Extends anything loop (loop.arbStep world fuel).1 := by
  rw [arbStep]
  split
  · split
    · exact (Extends.foldl (flattenSymbol_extends world.toWorld) DORM_IDS loop).trans
        (Extends.act trivial)
    · have timed : Extends anything loop { loop with clockReads := loop.clockReads + 1 } :=
        Extends.of_eq rfl rfl
      dsimp only
      split
      · exact timed.trans
          (absorb_extends (Run.arbTimeout_extends creating_always.toUnwinding world.toWorld _))
      · exact timed
  · have quoted : Run.Extends (fun _ _ => True) loop.toRun loop.quoted.toRun :=
      Run.Extends.of_eq rfl rfl
    have tried := quoted.trans (Run.tryCreationArb_extends creating_always world.toWorld fuel
      loop.quoted.toRun (loop.snapshot world))
    dsimp only
    split
    · exact absorb_extends tried
    · exact absorb_extends tried
    · exact absorb_extends
        (tried.trans (Run.tryRedemptionArb_extends world.toEtfWorld _ _))

theorem cancelAllOpenOrders_extends (loop : LoopRun) :
    Extends anything loop (loop.cancelAllOpenOrders world) :=
  Extends.foldl (deleteOrder_extends world.toWorld) _ loop

theorem pnlGuard_extends (fuel : Nat) (loop : LoopRun) :
    Extends anything loop (loop.pnlGuard world fuel).1 := by
  have deleted := (safeDelete_extends world.toWorld loop .bid).trans
    (safeDelete_extends world.toWorld _ .ask)
  have cancelled := deleted.trans (cancelAllOpenOrders_extends world _)
  have unwound := Extends.foldl (flattenSymbol_extends world.toWorld) symbolList
    (((loop.safeDelete world.toWorld .bid).safeDelete world.toWorld .ask).cancelAllOpenOrders world)
  rw [pnlGuard]
  dsimp only
  exact cancelled.trans unwound

theorem iteration_extends (mmLimit : Int32) (blueTick : UInt32) (fuel : Nat) (loop : LoopRun) :
    Extends anything loop (loop.iteration world mmLimit blueTick fuel).1 := by
  have traded := arbStep_extends world fuel loop
  rw [iteration]
  dsimp only
  split
  · exact pnlGuard_extends world fuel loop
  · split
    · exact traded.trans (blueMarketMaker_extends world.toWorld mmLimit blueTick _)
    · exact traded

/-- Every run of the loop, however long, goes on from where it starts. -/
theorem runWithMm_extends (mmLimit : Int32) (blueTick : UInt32) (fuel turns : Nat)
    (loop : LoopRun) :
    Extends anything loop (loop.runWithMm world mmLimit blueTick fuel turns).1 := by
  induction turns generalizing loop with
  | zero => exact Extends.refl loop
  | succ turns inductionHypothesis =>
      have counted : Extends anything loop { loop with iterations := loop.iterations + 1 } :=
        Extends.of_eq rfl rfl
      have turned := counted.trans (iteration_extends world mmLimit blueTick fuel _)
      rw [runWithMm]
      dsimp only
      split
      · split
        · exact turned.trans (inductionHypothesis _)
        · exact turned
      · exact (safeDelete_extends world.toWorld loop .bid).trans
          (safeDelete_extends world.toWorld _ .ask)

/-- The state of a run is what its log makes of the first state. -/
theorem runWithMm_state (mmLimit : Int32) (blueTick : UInt32) (fuel turns : Nat) (state : MmState)
    (inbox : List OeResponse) :
    let run := ((new state inbox).runWithMm world mmLimit blueTick fuel turns).1
    run.state = run.log.foldl MmState.act state := by
  obtain ⟨added, grown, final, -⟩ :=
    runWithMm_extends world mmLimit blueTick fuel turns (new state inbox)
  dsimp only
  rw [final, grown]
  rfl

end Loop

end LoopRun

end HftAlgorithms
