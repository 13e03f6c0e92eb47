/-
Module: HftAlgorithms.Proofs.OrderIds
Purpose: Which ids the loop gives its orders.  The arbs count from 1000 and the
  market maker from 90001, each on its own, so an id is given twice once the arbs
  have sent so many orders that they reach the market maker's first.
Trusted boundary: none
Main exports: LoopAction.isArbOrder, LoopAction.isMmOrder, MmState.orderIds_perm,
  MmState.Apart, LoopRun.ids_unique_iff
-/
import HftAlgorithms.Lib.WrappingCounter
import HftAlgorithms.Proofs.FillRouting

namespace HftAlgorithms

open FiniteMap StateMachine WrappingCounter

/-! ### The two counters -/

namespace LoopAction

/-- The action takes its id from `next_id`. -/
def isArbOrder : LoopAction → Bool
  | .bot (.sendOrder _ _ _ _) => true
  | _ => false

/-- The action takes its id from `mm_order_id`. -/
def isMmOrder : LoopAction → Bool
  | .sendMmOrder _ _ _ => true
  | _ => false

end LoopAction

namespace MmState

/-- The ids of all orders that the log sends, in order. -/
def orderIds (state : MmState) (log : List LoopAction) : List UInt64 :=
  (emitted act newOrders state log).map Prod.fst

/-- The ids that the arbs, and those that the market maker, have taken by the end of the log. -/
def arbIds (state : MmState) (log : List LoopAction) : List UInt64 :=
  countFrom state.bot.nextOrderId (log.countP LoopAction.isArbOrder)

def mmIds (state : MmState) (log : List LoopAction) : List UInt64 :=
  countFrom (state.mmOrderId + 1) (log.countP LoopAction.isMmOrder)

/-- What an action does to the counters and to the maps: it sends an arb order, or a BLUE order, or
none. -/
inductive Sends (state after : MmState) : LoopAction → Prop where
  | arb (symbol : UInt32) (side : Side) (qty : UInt32) (price : Int32)
      (counter : after.bot.nextOrderId = state.bot.nextOrderId + 1)
      (mmCounter : after.mmOrderId = state.mmOrderId)
      (orders : after.bot.orderMap =
        state.bot.orderMap.insert state.bot.nextOrderId (symbol, side))
      (mmOrders : after.bot.mmOrderMap = state.bot.mmOrderMap) :
      Sends state after (.bot (.sendOrder symbol side qty price))
  | mm (quote : MmQuote) (qty : UInt32) (price : Int32)
      (counter : after.bot.nextOrderId = state.bot.nextOrderId)
      (mmCounter : after.mmOrderId = state.mmOrderId + 1)
      (orders : after.bot.orderMap = state.bot.orderMap)
      (mmOrders : after.bot.mmOrderMap =
        state.bot.mmOrderMap.insert (state.mmOrderId + 1) (SYM_BLUE, quote.side)) :
      Sends state after (.sendMmOrder quote qty price)
  | none {action : LoopAction} (noArb : action.isArbOrder = false) (noMm : action.isMmOrder = false)
      (noOrder : state.newOrders action = [])
      (counter : after.bot.nextOrderId = state.bot.nextOrderId)
      (mmCounter : after.mmOrderId = state.mmOrderId)
      (orders : ∃ key, ErasesAtMost key state.bot.orderMap after.bot.orderMap)
      (mmOrders : ∃ key, ErasesAtMost key state.bot.mmOrderMap after.bot.mmOrderMap) :
      Sends state after action

theorem sends_act (state : MmState) (action : LoopAction) :
    Sends state (state.act action) action := by
  have nothing : ∀ map : OrderMap, ∃ key, ErasesAtMost key map map :=
    fun map => ⟨Option.none, Or.inl rfl⟩
  cases action with
  | bot action =>
      cases action with
      | sendOrder symbol side qty price => exact .arb symbol side qty price rfl rfl rfl rfl
      | receive response =>
          obtain ⟨orders, mmOrders⟩ := state.bot.maps_receive response
          exact .none rfl rfl rfl (Run.nextOrderId_receive [response] state.bot) rfl ⟨_, orders⟩
            ⟨_, mmOrders⟩
      | book symbol side qty price => exact .none rfl rfl rfl rfl rfl (nothing _) (nothing _)
      | callCreate amount result => exact .none rfl rfl rfl rfl rfl (nothing _) (nothing _)
      | fillTimeout => exact .none rfl rfl rfl rfl rfl (nothing _) (nothing _)
      | setArbInProgress inProgress => exact .none rfl rfl rfl rfl rfl (nothing _) (nothing _)
      | setArbStartTime time => exact .none rfl rfl rfl rfl rfl (nothing _) (nothing _)
  | deleteOrder id => exact .none rfl rfl rfl rfl rfl (nothing _) (nothing _)
  | sendMmOrder quote qty price => cases quote <;> exact .mm _ qty price rfl rfl rfl rfl
  | forget quote => cases quote <;> exact .none rfl rfl rfl rfl rfl (nothing _) (nothing _)
  | setLastBlueMid mid => exact .none rfl rfl rfl rfl rfl (nothing _) (nothing _)

/-- The ids sent are those of the two counters, in some order. -/
theorem orderIds_perm (state : MmState) (log : List LoopAction) :
    (state.orderIds log).Perm (state.arbIds log ++ state.mmIds log) := by
  induction log generalizing state with
  | nil => exact List.Perm.nil
  | cons action log inductionHypothesis =>
      have later := inductionHypothesis (state.act action)
      have sends := state.sends_act action
      have step : state.orderIds (action :: log) =
          (state.newOrders action).map Prod.fst ++ (state.act action).orderIds log := by
        rw [orderIds, emitted_cons, List.map_append]
        rfl
      rw [step]
      rw [arbIds, mmIds, List.countP_cons, List.countP_cons]
      rw [arbIds, mmIds] at later
      generalize state.act action = after at sends later
      cases sends with
      | arb symbol side qty price counter mmCounter =>
          rw [counter, mmCounter] at later
          exact later.cons state.bot.nextOrderId
      | mm quote qty price counter mmCounter =>
          rw [counter, mmCounter] at later
          exact (later.cons (state.mmOrderId + 1)).trans List.perm_middle.symm
      | none noArb noMm noOrder counter mmCounter =>
          rw [counter, mmCounter] at later
          simpa [noArb, noMm, noOrder] using later

/-- The keys of each map are ids that its own counter has given, or were there before. -/
theorem keys_of_counters (state : MmState) (log : List LoopAction) (id : UInt64) :
    (((log.foldl act state).bot.orderMap.lookup id).isSome →
      (state.bot.orderMap.lookup id).isSome ∨ id ∈ state.arbIds log) ∧
      (((log.foldl act state).bot.mmOrderMap.lookup id).isSome →
        (state.bot.mmOrderMap.lookup id).isSome ∨ id ∈ state.mmIds log) := by
  have inserted : ∀ (map : OrderMap) (key : UInt64) (route : UInt32 × Side) (count : Nat),
      ((map.insert key route).lookup id).isSome ∨ id ∈ countFrom (key + 1) count →
        (map.lookup id).isSome ∨ id ∈ countFrom key (count + 1) := by
    rintro map key route count (before | counted)
    · rw [lookup_insert_eq] at before
      split at before
      · rename_i here
        exact Or.inr (here ▸ List.mem_cons_self)
      · exact Or.inl before
    · exact Or.inr (List.mem_cons_of_mem _ counted)
  have remaining : ∀ {key : Option UInt64} {map after : OrderMap}, ErasesAtMost key map after →
      (after.lookup id).isSome → (map.lookup id).isSome := by
    intro key map after erases found
    obtain ⟨route, there⟩ := Option.isSome_iff_exists.mp found
    rw [erases.lookup_before there]
    rfl
  induction log generalizing state with
  | nil => exact ⟨Or.inl, Or.inl⟩
  | cons action log inductionHypothesis =>
      have later := inductionHypothesis (state.act action)
      have sends := state.sends_act action
      rw [List.foldl_cons]
      rw [arbIds, mmIds, List.countP_cons, List.countP_cons]
      rw [arbIds, mmIds] at later
      generalize state.act action = after at sends later ⊢
      cases sends with
      | arb symbol side qty price counter mmCounter orders mmOrders =>
          rw [counter, mmCounter, orders, mmOrders] at later
          exact ⟨fun found => inserted _ _ _ _ (later.1 found), later.2⟩
      | mm quote qty price counter mmCounter orders mmOrders =>
          rw [counter, mmCounter, orders, mmOrders] at later
          exact ⟨later.1, fun found => inserted _ _ _ _ (later.2 found)⟩
      | none noArb noMm noOrder counter mmCounter orders mmOrders =>
          rw [counter, mmCounter] at later
          obtain ⟨_, erases⟩ := orders
          obtain ⟨_, mmErases⟩ := mmOrders
          simp only [noArb, noMm, Bool.false_eq_true, if_false, Nat.add_zero]
          exact ⟨fun found => (later.1 found).imp_left (remaining erases),
            fun found => (later.2 found).imp_left (remaining mmErases)⟩

/-- The two counters have stayed apart: neither has reached where the other started. -/
def Apart (arbOrders mmOrders : Nat) : Prop :=
  (mmOrders = 0 ∧ arbOrders ≤ 2 ^ 64) ∨ (arbOrders = 0 ∧ mmOrders ≤ 2 ^ 64) ∨
    (arbOrders ≤ 89001 ∧ mmOrders ≤ 2 ^ 64 - 89001)

theorem nodup_counters_iff {start : UInt64} (first : start = 1000) (arbOrders mmOrders : Nat) :
    (countFrom start arbOrders ++ countFrom (90000 + 1) mmOrders).Nodup ↔
      Apart arbOrders mmOrders := by
  subst first
  rw [List.nodup_append', nodup_countFrom, nodup_countFrom, Apart]
  rcases Nat.eq_zero_or_pos arbOrders with rfl | someArb
  · simp [countFrom]
    omega
  · rcases Nat.eq_zero_or_pos mmOrders with rfl | someMm
    · simp [countFrom]
      omega
    · have ahead : ((90000 + 1 : UInt64) - 1000).toNat = 89001 := by decide
      have behind : ((1000 : UInt64) - (90000 + 1)).toNat = 2 ^ 64 - 89001 := by decide
      rw [disjoint_countFrom someArb someMm, ahead, behind]
      omega

end MmState

namespace LoopRun

/-- In every run of the loop from a bot without orders, however long, no id is sent twice and no id
is ever a key of both maps, exactly when the two counters have stayed apart. -/
theorem ids_unique_iff (world : LoopWorld) (mmLimit : Int32) (blueTick : UInt32)
    (fuel turns : Nat) (bot : BotState) (inbox : List OeResponse) (first : bot.nextOrderId = 1000)
    (noArb : bot.orderMap = ∅) (noMm : bot.mmOrderMap = ∅) :
    let log := ((new (MmState.new bot) inbox).runWithMm world mmLimit blueTick fuel turns).1.log
    (((MmState.new bot).orderIds log).Nodup ∧ ∀ earlier, earlier <+: log → ∀ id,
      ¬ (((earlier.foldl MmState.act (MmState.new bot)).bot.orderMap.lookup id).isSome ∧
        ((earlier.foldl MmState.act (MmState.new bot)).bot.mmOrderMap.lookup id).isSome)) ↔
      MmState.Apart (log.countP LoopAction.isArbOrder) (log.countP LoopAction.isMmOrder) := by
  intro log
  have nodup : ∀ log, ((MmState.new bot).orderIds log).Nodup ↔
      MmState.Apart (log.countP LoopAction.isArbOrder) (log.countP LoopAction.isMmOrder) := by
    intro log
    exact ((MmState.new bot).orderIds_perm log).nodup_iff.trans
      (MmState.nodup_counters_iff first _ _)
  rw [← nodup]
  refine and_iff_left_of_imp ?_
  rintro unique earlier ⟨later, split⟩ id ⟨inArb, inMm⟩
  have sooner : ((MmState.new bot).orderIds earlier).Nodup := by
    rw [← split, MmState.orderIds, emitted_append, List.map_append] at unique
    exact (List.nodup_append'.mp unique).1
  obtain ⟨arbKey, mmKey⟩ := (MmState.new bot).keys_of_counters earlier id
  have counted := ((MmState.new bot).orderIds_perm earlier).nodup_iff.mp sooner
  have fromArb : id ∈ (MmState.new bot).arbIds earlier := by
    refine (arbKey inArb).resolve_left ?_
    change ¬ (bot.orderMap.lookup id).isSome
    rw [noArb]
    exact Bool.false_ne_true
  have fromMm : id ∈ (MmState.new bot).mmIds earlier := by
    refine (mmKey inMm).resolve_left ?_
    change ¬ (bot.mmOrderMap.lookup id).isSome
    rw [noMm]
    exact Bool.false_ne_true
  exact (List.nodup_append'.mp counted).2.2 fromArb fromMm

/-- A run that keeps them apart: twelve arb orders and two BLUE ones. -/
theorem ids_unique_quotedThenRedeemed :
    ((MmState.new launchedBot).orderIds
      ((new (MmState.new launchedBot) quotedThenRedeemed).runWithMm redeemableWorld 2 5 0
        2).1.log).Nodup :=
  ((ids_unique_iff redeemableWorld 2 5 0 2 launchedBot quotedThenRedeemed rfl rfl rfl).mpr
    (Or.inr (Or.inr (by decide +kernel)))).1

end LoopRun

/-! ### A run that is long enough -/

namespace Run

/-- Where the clock stands still, a wait that finds its verdict first reads that message alone. -/
theorem waitForResponse_head {world : World} (still : ∀ reads, world.clock reads = 0) (run : Run)
    {id : UInt64} {response : OeResponse} {rest : List OeResponse} {value : Bool}
    (inbox : run.inbox = response :: rest) (ends : OEClient.verdict id response = some value) :
    run.waitForResponse world id =
      ({ run.act (.receive response) with clockReads := run.clockReads + 2, inbox := rest },
        value) := by
  have read : run.waitScan world id = ⟨[response], rest, some value⟩ := by
    rw [waitScan, now, now, still, still, OEClient.waitScan, if_neg (by decide), inbox,
      StreamScan.scan, ends]
  rw [waitForResponse, read]
  rfl

/-- What a refused redemption does. -/
def refusedArb (id : UInt64) : List BotAction :=
  [.setArbInProgress true, .setArbStartTime 0, .sendOrder SYM_UNDY .BUY 5 950,
    .receive (.reject id .INVALID_PRICE), .setArbInProgress false]

end Run

namespace LoopRun

theorem redeemableWorld_still (reads : Nat) : redeemableWorld.clock reads = 0 := rfl

/-- What a flat bot sees in the caches. -/
def redeemableSnap : ArbSnapshot :=
  (new (MmState.new launchedBot) []).snapshot redeemableWorld

theorem not_startsCreation (run : Run) : run.startsCreation redeemableSnap = false := by
  have unpaid : ¬ redeemableSnap.undyBestBidPrice - redeemableSnap.navAsk > Run.MIN_EDGE := by
    decide +kernel
  simp [Run.startsCreation, unpaid]

theorem startsRedemption_of_idle {run : Run} (idle : run.state.arbInProgress = false) :
    run.startsRedemption redeemableSnap = true := by
  have quoted : ¬ (redeemableSnap.anyDormBidMissing = true ∨
      redeemableSnap.undyBestAskPrice = 0) := by decide +kernel
  have paid : redeemableSnap.navBid - redeemableSnap.undyBestAskPrice > Run.MIN_EDGE := by
    decide +kernel
  have lots : Run.redemptionQty redeemableSnap > 0 := by decide +kernel
  rw [Run.startsRedemption, idle]
  simp only [quoted, paid, lots]
  rfl

theorem tryRedemptionArb_refused {run : Run} (idle : run.state.arbInProgress = false)
    {rest : List OeResponse}
    (inbox : run.inbox = .reject run.state.nextOrderId .INVALID_PRICE :: rest) :
    run.tryRedemptionArb redeemableWorld.toEtfWorld redeemableSnap =
      ({ run with
        state := (Run.refusedArb run.state.nextOrderId).foldl BotState.act run.state
        log := run.log ++ Run.refusedArb run.state.nextOrderId
        inbox := rest
        clockReads := run.clockReads + 3 }, false) := by
  have refused : OEClient.verdict run.state.nextOrderId
      (.reject run.state.nextOrderId .INVALID_PRICE) = some false := by simp [OEClient.verdict]
  have waited := fun (sent : Run) (same : sent.inbox = run.inbox) =>
    Run.waitForResponse_head redeemableWorld_still sent (same.trans inbox) refused
  have bought : run.buyUndy redeemableWorld.toWorld redeemableSnap =
      ({ run with
        state := ((Run.refusedArb run.state.nextOrderId).take 4).foldl BotState.act run.state
        log := run.log ++ (Run.refusedArb run.state.nextOrderId).take 4
        inbox := rest
        clockReads := run.clockReads + 3 }, false) := by
    have clock : run.now redeemableWorld.toWorld = 0 := rfl
    have qty : (Run.redemptionQty redeemableSnap).toUInt32 = 5 := by decide +kernel
    have price : redeemableSnap.undyBestAskPrice = 950 := by decide +kernel
    rw [Run.buyUndy, Run.sendNewOrder, clock, qty, price]
    refine Eq.trans (waited _ ?_) ?_
    · rfl
    · simp [Run.act, Run.tick, Run.sendOrderNoWait, Run.refusedArb]
  rw [Run.tryRedemptionArb, startsRedemption_of_idle idle, bought]
  simp [Run.act, Run.refusedArb]

/-- The loop has gone on by exactly these actions, and these responses are left. -/
def Does (loop later : LoopRun) (actions : List LoopAction) (rest : List OeResponse) : Prop :=
  later.log = loop.log ++ actions ∧ later.state = actions.foldl MmState.act loop.state ∧
    later.inbox = rest

theorem Does.trans {loop between later : LoopRun} {first second : List LoopAction}
    {unread rest : List OeResponse} (one : loop.Does between first unread)
    (two : between.Does later second rest) : loop.Does later (first ++ second) rest := by
  obtain ⟨log, state, -⟩ := one
  obtain ⟨logAgain, stateAgain, left⟩ := two
  refine ⟨?_, ?_, left⟩
  · rw [logAgain, log, List.append_assoc]
  · rw [stateAgain, state, List.foldl_append]

theorem Does.act {loop later : LoopRun} {actions : List LoopAction} {rest : List OeResponse}
    (sofar : loop.Does later actions rest) (action : LoopAction) :
    loop.Does (later.act action) (actions ++ [action]) rest :=
  sofar.trans ⟨rfl, rfl, sofar.2.2⟩

theorem arbStep_refused {loop : LoopRun} (flat : loop.state.bot.manager = .empty)
    (idle : loop.state.bot.arbInProgress = false) {rest : List OeResponse}
    (inbox : loop.inbox = .reject loop.state.bot.nextOrderId .INVALID_PRICE :: rest) :
    ∃ later, loop.arbStep redeemableWorld 0 = (later, true) ∧
      loop.Does later ((Run.refusedArb loop.state.bot.nextOrderId).map .bot) rest := by
  have snap : loop.snapshot redeemableWorld = redeemableSnap := by
    rw [snapshot, flat]
    rfl
  have noCreation : loop.quoted.toRun.tryCreationArb redeemableWorld.toWorld 0 redeemableSnap =
      (loop.quoted.toRun, some false) := by
    rw [Run.tryCreationArb, not_startsCreation]
    rfl
  have refused : loop.quoted.toRun.tryRedemptionArb redeemableWorld.toEtfWorld redeemableSnap = _ :=
    tryRedemptionArb_refused idle inbox
  rw [arbStep, idle, if_neg Bool.false_ne_true, snap]
  dsimp only
  rw [noCreation]
  dsimp only
  rw [refused]
  refine ⟨_, rfl, rfl, ?_, rfl⟩
  rw [MmState.foldl_bot]
  rfl

/-- A flat market maker only looks at its quotes. -/
theorem blueMarketMaker_flat {loop : LoopRun} (flat : loop.state.bot.manager = .empty) :
    loop.blueMarketMaker redeemableWorld.toWorld 2 5 =
      (loop.act (.forget .flatten)).requote redeemableWorld.toWorld 2 5 := by
  have position : loop.getPosition SYM_BLUE = 0 := by
    rw [getPosition, flat]
    rfl
  rw [blueMarketMaker, position]
  rfl

theorem blueMid_redeemable (loop : LoopRun) :
    blueMid 5 (loop.bestBid redeemableWorld.toWorld SYM_BLUE)
      (loop.quoted.bestAsk redeemableWorld.toWorld SYM_BLUE) = 1005 := by
  change blueMid 5 1000 1010 = 1005
  decide

/-- While the mid price has not moved, nothing is sent. -/
theorem requote_still {loop : LoopRun} (still : loop.state.lastBlueMid = 1005) :
    loop.requote redeemableWorld.toWorld 2 5 = loop.quoted.quoted := by
  have same : loop.quoted.quoted.state.lastBlueMid = 1005 := still
  rw [requote]
  dsimp only
  rw [blueMid_redeemable, same]
  simp

theorem sendMmOrder_acked (loop : LoopRun) (quote : MmQuote) (qty : UInt32) (price : Int32)
    {id : UInt64} (next : loop.state.mmOrderId + 1 = id) {rest : List OeResponse}
    (inbox : loop.inbox = .ack id :: rest) :
    loop.Does (loop.sendMmOrder redeemableWorld.toWorld quote qty price)
      [.sendMmOrder quote qty price, .bot (.receive (.ack id))] rest := by
  have acked : OEClient.verdict id (.ack id) = some true := by simp [OEClient.verdict]
  rw [sendMmOrder, next, waitForResponse,
    Run.waitForResponse_head redeemableWorld_still (loop.act (.sendMmOrder quote qty price)).toRun
      inbox acked]
  refine ⟨?_, rfl, rfl⟩
  exact List.append_assoc loop.log [_] [_]

/-- The first two quotes. -/
def firstQuotes : List LoopAction :=
  [.sendMmOrder .bid 1 1000, .bot (.receive (.ack 90001)), .sendMmOrder .ask 1 1010,
    .bot (.receive (.ack 90002)), .setLastBlueMid 1005]

theorem requote_first {loop : LoopRun} (flat : loop.state.bot.manager = .empty)
    (idle : loop.state.bot.arbInProgress = false) (unquoted : loop.state.lastBlueMid = 0)
    (noQuotes : loop.state.bot.blueBidId = 0 ∧ loop.state.bot.blueAskId = 0)
    (counter : loop.state.mmOrderId = 90000) {rest : List OeResponse}
    (inbox : loop.inbox = .ack 90001 :: .ack 90002 :: rest) :
    loop.Does (loop.requote redeemableWorld.toWorld 2 5) firstQuotes rest := by
  have moved : (1005 : Int32) ≠ loop.quoted.quoted.state.lastBlueMid ∧
      ¬ loop.quoted.quoted.state.bot.arbInProgress = true := by
    change (1005 : Int32) ≠ loop.state.lastBlueMid ∧ ¬ loop.state.bot.arbInProgress = true
    rw [unquoted, idle]
    decide
  have position : ∀ held : LoopRun, held.state.bot.manager = .empty →
      held.getPosition SYM_BLUE = 0 := by
    intro held empty
    rw [getPosition, empty]
    rfl
  have positive : loop.bestBid redeemableWorld.toWorld SYM_BLUE > 0 ∧
      loop.quoted.bestAsk redeemableWorld.toWorld SYM_BLUE > 0 := by
    change (1000 : Int32) > 0 ∧ (1010 : Int32) > 0
    decide
  have noBid : loop.quoted.quoted.safeDelete redeemableWorld.toWorld .bid = loop.quoted.quoted :=
    if_pos noQuotes.1
  have noAsk : loop.quoted.quoted.safeDelete redeemableWorld.toWorld .ask = loop.quoted.quoted :=
    if_pos noQuotes.2
  have bid : loop.Does (loop.quoted.quoted.quoteBid redeemableWorld.toWorld 2 5 1005)
      [.sendMmOrder .bid 1 1000, .bot (.receive (.ack 90001))] (.ack 90002 :: rest) := by
    rw [quoteBid, position loop.quoted.quoted flat, if_pos (by decide)]
    exact loop.quoted.quoted.sendMmOrder_acked .bid 1 1000 (congrArg (· + 1) counter) inbox
  rw [requote]
  dsimp only
  rw [blueMid_redeemable, if_pos positive, if_pos moved, quoteAround, noBid, noAsk]
  generalize loop.quoted.quoted.quoteBid redeemableWorld.toWorld 2 5 1005 = sent at bid
  obtain ⟨log, state, left⟩ := bid
  have stillFlat : sent.state.bot.manager = .empty := by
    rw [state]
    exact flat
  have counted : sent.state.mmOrderId + 1 = 90002 := by
    rw [state]
    change loop.state.mmOrderId + 1 + 1 = 90002
    rw [counter]
    rfl
  have ask : sent.Does (sent.quoteAsk redeemableWorld.toWorld 2 5 1005)
      [.sendMmOrder .ask 1 1010, .bot (.receive (.ack 90002))] rest := by
    rw [quoteAsk, position _ stillFlat, if_pos (by decide)]
    exact sent.sendMmOrder_acked .ask 1 1010 counted left
  have quoted : loop.Does (sent.quoteAsk redeemableWorld.toWorld 2 5 1005) _ rest :=
    Does.trans ⟨log, state, left⟩ ask
  exact quoted.act (.setLastBlueMid 1005)

/-- The loop is flat and idle, its next arb order is `id`, and `unread` is to come. -/
structure Idle (loop : LoopRun) (id : UInt64) (unread : List OeResponse) : Prop where
  flat : loop.state.bot.manager = .empty
  idle : loop.state.bot.arbInProgress = false
  counter : loop.state.bot.nextOrderId = id
  inbox : loop.inbox = unread

/-- A turn of the loop in which the redemption is refused, up to the BLUE quotes. -/
theorem iteration_refused {loop : LoopRun} {id : UInt64} {rest : List OeResponse}
    (idle : loop.Idle id (.reject id .INVALID_PRICE :: rest)) :
    ∃ later : LoopRun, loop.iteration redeemableWorld 2 5 0 =
        (later.requote redeemableWorld.toWorld 2 5, true) ∧
      loop.Does later ((Run.refusedArb id).map .bot ++ [.forget .flatten]) rest := by
  obtain ⟨flat, notBusy, rfl, inbox⟩ := idle
  obtain ⟨traded, step, does⟩ := arbStep_refused flat notBusy inbox
  have stillFlat : traded.state.bot.manager = .empty := by
    rw [does.2.1]
    exact flat
  have far : loop.state.bot.manager.pnlNearLimit = false := by
    rw [flat]
    decide +kernel
  refine ⟨traded.act (.forget .flatten), ?_, does.act (.forget .flatten)⟩
  rw [iteration, far, if_neg Bool.false_ne_true, step]
  dsimp only
  rw [if_pos rfl, blueMarketMaker_flat stillFlat]

/-- One such turn sends one arb order; the quotes rest. -/
theorem idle_iteration {loop : LoopRun} {id : UInt64} {rest : List OeResponse}
    (idle : loop.Idle id (.reject id .INVALID_PRICE :: rest))
    (still : loop.state.lastBlueMid = 1005) :
    ∃ later : LoopRun, loop.iteration redeemableWorld 2 5 0 = (later, true) ∧
      later.Idle (id + 1) rest ∧ later.state.lastBlueMid = 1005 ∧
      later.log.countP LoopAction.isArbOrder = loop.log.countP LoopAction.isArbOrder + 1 ∧
      later.log.countP LoopAction.isMmOrder = loop.log.countP LoopAction.isMmOrder := by
  obtain ⟨later, step, log, state, left⟩ := iteration_refused idle
  obtain ⟨flat, -, rfl, -⟩ := idle
  have quoted : later.state.lastBlueMid = 1005 := by
    rw [state]
    exact still
  refine ⟨later.quoted.quoted, ?_, ⟨?_, ?_, ?_, left⟩, quoted, ?_, ?_⟩
  · rw [step, requote_still quoted]
  · change later.state.bot.manager = _
    rw [state]
    exact flat
  · change later.state.bot.arbInProgress = _
    rw [state]
    rfl
  · change later.state.bot.nextOrderId = _
    rw [state]
    rfl
  · change later.log.countP _ = _
    rw [log, List.countP_append]
    rfl
  · change later.log.countP _ = _
    rw [log, List.countP_append]
    rfl

theorem runWithMm_turn {loop later : LoopRun} {turns : Nat}
    (step : { loop with iterations := loop.iterations + 1 }.iteration redeemableWorld 2 5 0 =
      (later, true)) :
    loop.runWithMm redeemableWorld 2 5 0 (turns + 1) =
      later.runWithMm redeemableWorld 2 5 0 turns := by
  have running : redeemableWorld.running loop.iterations = true := rfl
  rw [runWithMm, if_pos running]
  dsimp only
  rw [step]
  exact if_pos rfl

/-- As many orders as there are refusals. -/
theorem countP_runWithMm_refused (count : Nat) {loop : LoopRun} {id : UInt64}
    (idle : loop.Idle id ((countFrom id count).map fun id => .reject id .INVALID_PRICE))
    (still : loop.state.lastBlueMid = 1005) :
    let log := (loop.runWithMm redeemableWorld 2 5 0 count).1.log
    log.countP LoopAction.isArbOrder = loop.log.countP LoopAction.isArbOrder + count ∧
      log.countP LoopAction.isMmOrder = loop.log.countP LoopAction.isMmOrder := by
  induction count generalizing loop id with
  | zero => exact ⟨rfl, rfl⟩
  | succ count inductionHypothesis =>
      have counted : Idle { loop with iterations := loop.iterations + 1 } id _ :=
        ⟨idle.flat, idle.idle, idle.counter, idle.inbox⟩
      obtain ⟨later, step, next, stays, arbOrders, mmOrders⟩ := idle_iteration counted still
      obtain ⟨laterArb, laterMm⟩ := inductionHypothesis next stays
      rw [runWithMm_turn step]
      dsimp only
      rw [laterArb, laterMm, arbOrders, mmOrders]
      exact ⟨by rw [Nat.add_assoc, Nat.add_comm 1], rfl⟩

/-- The exchange refuses every redemption buy, and acknowledges the two quotes. -/
def refusals (count : Nat) : List OeResponse :=
  .reject 1000 .INVALID_PRICE :: .ack 90001 :: .ack 90002 ::
    (countFrom 1001 count).map fun id => .reject id .INVALID_PRICE

/-- Every turn sends an arb order, and the first one both quotes. -/
theorem countP_refusals (count : Nat) :
    let log := ((new (MmState.new launchedBot) (refusals count)).runWithMm redeemableWorld 2 5 0
      (count + 1)).1.log
    log.countP LoopAction.isArbOrder = count + 1 ∧ log.countP LoopAction.isMmOrder = 2 := by
  let start : LoopRun := { new (MmState.new launchedBot) (refusals count) with iterations := 1 }
  have started : start.Idle 1000 (refusals count) := ⟨rfl, rfl, rfl, rfl⟩
  obtain ⟨later, step, log, state, left⟩ := iteration_refused started
  have quoted : later.Does (later.requote redeemableWorld.toWorld 2 5) firstQuotes
      ((countFrom 1001 count).map fun id => .reject id .INVALID_PRICE) := by
    refine requote_first ?_ ?_ ?_ ?_ ?_ left <;> rw [state] <;> first | rfl | exact ⟨rfl, rfl⟩
  obtain ⟨quotedLog, quotedState, quotedLeft⟩ := Does.trans ⟨log, state, left⟩ quoted
  have idle : (later.requote redeemableWorld.toWorld 2 5).Idle 1001
      ((countFrom 1001 count).map fun id => .reject id .INVALID_PRICE) := by
    refine ⟨?_, ?_, ?_, quotedLeft⟩ <;> rw [quotedState] <;> rfl
  obtain ⟨arbOrders, mmOrders⟩ := countP_runWithMm_refused count idle (by rw [quotedState]; rfl)
  rw [quotedLog, List.countP_append] at arbOrders mmOrders
  rw [@runWithMm_turn (new (MmState.new launchedBot) (refusals count)) _ count step]
  exact ⟨arbOrders.trans (Nat.add_comm 1 count), mmOrders⟩

/-- The 89002nd redemption buy is sent under the id of the bid that rests. -/
theorem refused_redemptions_reuse_bid :
    let log := ((new (MmState.new launchedBot) (refusals 89001)).runWithMm redeemableWorld 2 5 0
      (89001 + 1)).1.log
    90001 ∈ (MmState.new launchedBot).arbIds log ∧ 90001 ∈ (MmState.new launchedBot).mmIds log ∧
      ¬ ((MmState.new launchedBot).orderIds log).Nodup := by
  intro log
  obtain ⟨arbOrders, mmOrders⟩ := countP_refusals 89001
  have fromArb : 90001 ∈ (MmState.new launchedBot).arbIds log := by
    rw [MmState.arbIds, mem_countFrom, arbOrders]
    decide
  have fromMm : 90001 ∈ (MmState.new launchedBot).mmIds log := by
    rw [MmState.mmIds, mem_countFrom, mmOrders]
    decide
  refine ⟨fromArb, fromMm, ?_⟩
  intro unique
  have apart := ((MmState.new launchedBot).orderIds_perm log).nodup_iff.mp unique
  exact (List.nodup_append'.mp apart).2.2 fromArb fromMm

end LoopRun

end HftAlgorithms
