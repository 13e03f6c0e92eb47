/-
Module: HftAlgorithms.Proofs.BotRuns
Purpose: What the calls of the bot append to its log.  A property of actions that
  every unwind, or every call, obeys is proved once for each helper of the source.
Trusted boundary: none
Main exports: Run.Extends, Run.Unwinding, Run.Trading, Run.unwindDormLongs_extends,
  Run.perform_extends, Run.loggedInBot
-/
import HftAlgorithms.Arb.ETFArb
import HftAlgorithms.Lib.StateMachine

namespace HftAlgorithms

open StateMachine

/-! ### What a fill does -/

namespace BotState

section Fill

variable {bot : BotState} {orderId : UInt64} {symbol : UInt32} {side : Side} (qty : UInt32)
  (price : Int32) (flags : FillFlags)

theorem receive_arbFill (routed : bot.orderMap.lookup orderId = some (symbol, side)) :
    let after := bot.act (.receive (.fill orderId qty price flags))
    after.manager = bot.manager.onFill symbol side qty price ∧
      after.orderMap =
        (if flags = .CLOSED then bot.orderMap.erase orderId else bot.orderMap) ∧
      after.mmOrderMap = bot.mmOrderMap := by
  simp [act, OeResponse.callbacks, callback, fillCallback, routed]

theorem receive_mmFill (unrouted : bot.orderMap.lookup orderId = none)
    (routed : bot.mmOrderMap.lookup orderId = some (symbol, side)) :
    let after := bot.act (.receive (.fill orderId qty price flags))
    after.manager = bot.manager.onFill symbol side qty price ∧
      after.orderMap = bot.orderMap ∧
      after.mmOrderMap =
        (if flags = .CLOSED then bot.mmOrderMap.erase orderId else bot.mmOrderMap) := by
  by_cases closed : flags = .CLOSED
  · simp [act, OeResponse.callbacks, callback, fillCallback, unrouted, routed, closed]
  · simp [act, OeResponse.callbacks, callback, fillCallback, unrouted, routed, closed]

theorem receive_strangeFill (unrouted : bot.orderMap.lookup orderId = none)
    (unroutedMm : bot.mmOrderMap.lookup orderId = none) :
    let after := bot.act (.receive (.fill orderId qty price flags))
    after.manager = bot.manager ∧ after.orderMap = bot.orderMap ∧
      after.mmOrderMap = bot.mmOrderMap := by
  simp [act, OeResponse.callbacks, callback, fillCallback, unrouted, unroutedMm]

/-- A fill of no arb order adds no route, and moves only the position of a market-maker order. -/
theorem receive_unroutedFill (unrouted : bot.orderMap.lookup orderId = none) :
    let after := bot.act (.receive (.fill orderId qty price flags))
    after.orderMap = bot.orderMap ∧
      (∀ id route, after.mmOrderMap.lookup id = some route →
        bot.mmOrderMap.lookup id = some route) ∧
      ∀ other, (∀ route, bot.mmOrderMap.lookup orderId = some route → other ≠ route.1) →
        after.manager.getPosition other = bot.manager.getPosition other := by
  dsimp only
  cases routed : bot.mmOrderMap.lookup orderId with
  | none =>
      obtain ⟨manager, orders, mmOrders⟩ := receive_strangeFill qty price flags unrouted routed
      rw [manager, orders, mmOrders]
      exact ⟨rfl, fun _ _ found => found, fun _ _ => rfl⟩
  | some route =>
      obtain ⟨manager, orders, mmOrders⟩ := receive_mmFill qty price flags unrouted routed
      rw [manager, orders, mmOrders]
      refine ⟨rfl, ?_, ?_⟩
      · intro id other found
        split at found
        · exact FiniteMap.lookup_of_lookup_erase found
        · exact found
      · intro other elsewhere
        rw [SymbolManager.getPosition_onFill, if_neg (elsewhere route rfl)]

end Fill

end BotState

/-! ### Extending a run -/

namespace Run

/-- A run goes on to another by actions that are all `allowed` where they are taken. -/
def Extends (allowed : BotState → BotAction → Prop) (run later : Run) : Prop :=
  ∃ added, later.log = run.log ++ added ∧ later.state = added.foldl BotState.act run.state ∧
    Along BotState.act allowed run.state added

variable {allowed : BotState → BotAction → Prop}

namespace Extends

/-- Runs that share state and log are as good as one. -/
theorem of_eq {run later : Run} (sameState : later.state = run.state)
    (sameLog : later.log = run.log) : Extends allowed run later :=
  ⟨[], by rw [sameLog, List.append_nil], sameState, trivial⟩

theorem refl (run : Run) : Extends allowed run run := of_eq rfl rfl

theorem trans {first second third : Run} (one : Extends allowed first second)
    (two : Extends allowed second third) : Extends allowed first third :=
  exists_added_trans one two

theorem quoted (run : Run) : Extends allowed run run.quoted := of_eq rfl rfl

theorem tick (run : Run) (count : Nat) : Extends allowed run (run.tick count) := of_eq rfl rfl

theorem act {run : Run} {action : BotAction} (here : allowed run.state action) :
    Extends allowed run (run.act action) :=
  ⟨[action], rfl, rfl, here, trivial⟩

/-- A later log holds what the earlier one held, and otherwise only what is allowed. -/
theorem mem_log {run later : Run} (reached : Extends allowed run later) {action : BotAction} :
    action ∈ later.log → action ∈ run.log ∨ ∃ bot, allowed bot action := by
  obtain ⟨added, grown, -, along⟩ := reached
  intro member
  rw [grown] at member
  rcases List.mem_append.mp member with before | new
  · exact Or.inl before
  · exact Or.inr (along.exists_of_mem new)

/-- Nothing leaves the log. -/
theorem log_subset {run later : Run} (reached : Extends allowed run later) :
    run.log ⊆ later.log := by
  obtain ⟨added, grown, -, -⟩ := reached
  rw [grown]
  exact List.subset_append_left run.log added

/-- A loop over a list extends a run when every turn does. -/
theorem foldl {ι : Type*} {turn : Run → ι → Run}
    (step : ∀ run item, Extends allowed run (turn run item)) (items : List ι) (run : Run) :
    Extends allowed run (items.foldl turn run) := by
  induction items generalizing run with
  | nil => exact refl run
  | cons item items inductionHypothesis =>
      exact (step run item).trans (inductionHypothesis (turn run item))

/-- The same for a loop that carries more than the run. -/
theorem foldl_fst {ι β : Type*} {turn : Run × β → ι → Run × β}
    (step : ∀ carried item, Extends allowed carried.1 (turn carried item).1) (items : List ι)
    (carried : Run × β) : Extends allowed carried.1 (items.foldl turn carried).1 := by
  induction items generalizing carried with
  | nil => exact refl carried.1
  | cons item items inductionHypothesis =>
      exact (step carried item).trans (inductionHypothesis (turn carried item))

/-- A run that started with an empty log has logged nothing but what is allowed. -/
theorem along_new {state : BotState} {inbox : List OeResponse} {later : Run}
    (reached : Extends allowed (new state inbox) later) :
    Along BotState.act allowed state later.log := by
  obtain ⟨added, grown, -, along⟩ := reached
  rw [grown]
  exact along

end Extends

/-! ### What the helpers do -/

/-- A property of actions that these have: keeping the arb's own flags, reading a response,
buying, and selling a whole long position of a dorm or of UNDY. -/
structure Unwinding (allowed : BotState → BotAction → Prop) : Prop where
  setsInProgress : ∀ bot inProgress, allowed bot (.setArbInProgress inProgress)
  setsStartTime : ∀ bot time, allowed bot (.setArbStartTime time)
  receives : ∀ bot response, allowed bot (.receive response)
  buys : ∀ bot symbol qty price, allowed bot (.sendOrder symbol .BUY qty price)
  closes : ∀ bot symbol price, symbol ∈ DORM_IDS ∨ symbol = SYM_UNDY →
    0 < bot.manager.getPosition symbol →
    allowed bot (.sendOrder symbol .SELL (bot.manager.getPosition symbol).toUInt32 price)

section Unwinding

variable (unwinding : Unwinding allowed) (world : World)

include unwinding

theorem waitForResponse_extends (run : Run) (id : UInt64) :
    Extends allowed run (run.waitForResponse world id).1 :=
  Extends.trans (Extends.of_eq rfl rfl)
    (Extends.foldl (fun _ response => Extends.act (unwinding.receives _ response)) _ _)

theorem collect_extends (run : Run) (ids : List UInt64) :
    Extends allowed run (run.collect world ids).1 := by
  induction ids generalizing run with
  | nil => exact Extends.refl run
  | cons id ids inductionHypothesis =>
      exact (waitForResponse_extends unwinding world run id).trans (inductionHypothesis _)

theorem unwindLeg_extends {symbol : UInt32} (dorm : symbol ∈ DORM_IDS)
    (fired : Run × List UInt64) : Extends allowed fired.1 (unwindLeg world fired symbol).1 := by
  have readQuote : Extends allowed fired.1 fired.1.quoted := Extends.quoted fired.1
  rw [unwindLeg]
  dsimp only
  split
  · rename_i long
    split
    · exact readQuote
    · exact readQuote.trans (Extends.act (unwinding.closes _ symbol _ (Or.inl dorm) long))
  · split
    · split
      · exact readQuote
      · exact readQuote.trans (Extends.act (unwinding.buys _ symbol _ _))
    · exact Extends.refl fired.1

theorem unwindDormLongs_extends (run : Run) :
    Extends allowed run (run.unwindDormLongs world) := by
  have legs : ∀ symbols : List UInt32, (∀ symbol ∈ symbols, symbol ∈ DORM_IDS) →
      ∀ fired : Run × List UInt64,
        Extends allowed fired.1 (symbols.foldl (unwindLeg world) fired).1 := by
    intro symbols
    induction symbols with
    | nil => exact fun _ fired => Extends.refl fired.1
    | cons symbol symbols inductionHypothesis =>
        intro dorms fired
        exact (unwindLeg_extends unwinding world (dorms symbol List.mem_cons_self) fired).trans
          (inductionHypothesis (fun other member => dorms other (List.mem_cons_of_mem _ member)) _)
  exact (legs DORM_IDS (fun _ member => member) (run, [])).trans
    (collect_extends unwinding world _ _)

/-- Selling the whole UNDY position and waiting for the answer. -/
theorem sellPosition_extends {run : Run} {undyPos : Int32}
    (current : undyPos = run.getPosition SYM_UNDY) (long : undyPos > 0) (bid : Int32) :
    Extends allowed run
      (run.quoted.sendNewOrder world SYM_UNDY .SELL undyPos.toUInt32 bid).1 := by
  subst current
  have sent : Extends allowed run (run.quoted.sendOrderNoWait SYM_UNDY .SELL
      (run.getPosition SYM_UNDY).toUInt32 bid) :=
    (Extends.quoted run).trans (Extends.act (unwinding.closes _ SYM_UNDY bid (Or.inr rfl) long))
  exact sent.trans (waitForResponse_extends unwinding world _ _)

theorem sellUndy_extends (fuel attempts : Nat) {run : Run} {undyPos : Int32}
    (current : undyPos = run.getPosition SYM_UNDY) :
    Extends allowed run (sellUndy world fuel attempts undyPos run).1 := by
  induction fuel generalizing attempts run undyPos with
  | zero => exact Extends.refl run
  | succ fuel inductionHypothesis =>
      rw [sellUndy]
      dsimp only
      split
      · rename_i again
        split
        · exact (Extends.quoted run).trans (inductionHypothesis attempts rfl)
        · exact (sellPosition_extends unwinding world current again.1 _).trans
            (inductionHypothesis (attempts + 1) rfl)
      · exact Extends.refl run

theorem fireLegs_extends (qty : Int32) (run : Run) (snap : ArbSnapshot) :
    Extends allowed run (fireLegs qty run snap).1 :=
  Extends.foldl_fst (fun _ leg => Extends.act (unwinding.buys _ leg.1 _ _)) _ (run, [])

theorem sendLegs_extends (run : Run) (snap : ArbSnapshot) :
    Extends allowed run (run.sendLegs world snap).1 := by
  have started : Extends allowed run
      (((run.act (.setArbInProgress true)).tick 1).act (.setArbStartTime (run.now world))) :=
    ((Extends.act (unwinding.setsInProgress _ true)).trans (Extends.tick _ 1)).trans
      (Extends.act (unwinding.setsStartTime _ _))
  exact (started.trans (fireLegs_extends unwinding _ _ snap)).trans
    (collect_extends unwinding world _ _)

theorem arbTimeout_extends (run : Run) : Extends allowed run (run.arbTimeout world) := by
  rw [arbTimeout]
  dsimp only
  refine Extends.trans ?_ (Extends.act (unwinding.setsInProgress _ false))
  refine (unwindDormLongs_extends unwinding world run).trans ?_
  split
  · rename_i long
    split
    · exact sellPosition_extends unwinding world rfl long _
    · exact Extends.quoted _
  · exact Extends.refl _

end Unwinding

/-! ### What the calls do -/

/-- A property that the `/create` call and its bookings have as well. -/
structure Creating (allowed : BotState → BotAction → Prop) : Prop extends Unwinding allowed where
  books : ∀ bot symbol side qty price, allowed bot (.book symbol side qty price)
  creates : ∀ bot amount result, allowed bot (.callCreate amount result)

/-- A property that everything but another kind of sell has. -/
structure Trading (allowed : BotState → BotAction → Prop) : Prop extends Creating allowed where
  timesOut : ∀ bot, allowed bot .fillTimeout

section Creating

variable (creating : Creating allowed) (world : World)

include creating

theorem bookCreation_extends (qty : Int32) (run : Run) (snap : ArbSnapshot) :
    Extends allowed run (bookCreation world qty run snap) :=
  Extends.trans
    (Extends.foldl (fun run _ => (Extends.quoted run).trans
      (Extends.act (creating.books _ _ _ _ _))) DORM_IDS run)
    (Extends.act (creating.books _ _ _ _ _))

theorem createAndSell_extends (fuel : Nat) (qty : Int32) (run : Run) (snap : ArbSnapshot) :
    Extends allowed run (createAndSell world fuel qty run snap).1 := by
  have called : Extends allowed run
      { run.act (.callCreate qty (world.create run.etfCalls qty)) with
        etfCalls := run.etfCalls + 1 } :=
    (Extends.act (creating.creates _ _ _)).trans (Extends.of_eq rfl rfl)
  rw [createAndSell]
  dsimp only
  split
  · dsimp only
    exact called.trans (unwindDormLongs_extends creating.toUnwinding world _)
  · exact (called.trans (bookCreation_extends creating world qty _ snap)).trans
      (sellUndy_extends creating.toUnwinding world fuel 0 rfl)

end Creating

/-- Polling reads the clock and nothing else. -/
theorem pollFills_tick (world : World) (qty : Int32) (deadline : Int) (fuel : Nat) (run : Run) :
    ∃ count, (pollFills world qty deadline fuel run).1 = run.tick count := by
  induction fuel generalizing run with
  | zero => exact ⟨0, rfl⟩
  | succ fuel inductionHypothesis =>
      rw [pollFills]
      split
      · exact ⟨0, rfl⟩
      · split
        · exact ⟨1, rfl⟩
        · obtain ⟨count, polled⟩ := inductionHypothesis (run.tick 1)
          exact ⟨1 + count, by rw [polled, tick, tick, tick, Nat.add_assoc]⟩

theorem pollFills_extends (world : World) (qty : Int32) (deadline : Int) (fuel : Nat) (run : Run) :
    Extends allowed run (pollFills world qty deadline fuel run).1 := by
  obtain ⟨count, polled⟩ := pollFills_tick world qty deadline fuel run
  rw [polled]
  exact Extends.tick run count

/-- Where the positions are missing, polling never says that they are there. -/
theorem pollFills_ne_true (world : World) {qty : Int32} (deadline : Int) (fuel : Nat) {run : Run}
    (missing : run.allFilled qty = false) :
    (pollFills world qty deadline fuel run).2 ≠ some true := by
  induction fuel generalizing run with
  | zero => simp [pollFills]
  | succ fuel inductionHypothesis =>
      rw [pollFills, missing, if_neg Bool.false_ne_true]
      split
      · simp
      · exact inductionHypothesis missing

/-- Responses take no ids. -/
theorem nextOrderId_receive (responses : List OeResponse) (bot : BotState) :
    (responses.foldl (fun bot response => bot.act (.receive response)) bot).nextOrderId =
      bot.nextOrderId := by
  refine @invariant_foldl_always _ _ _ (fun later => later.nextOrderId = bot.nextOrderId) ?_ bot rfl
    responses
  intro later response same
  rw [← same]
  cases response with
  | fill orderId qty price flags =>
      change (BotState.fillCallback _ _).nextOrderId = _
      rw [BotState.fillCallback]
      split
      · rfl
      · split
        · dsimp only
          split <;> rfl
        · rfl
  | ack orderId => rfl
  | reject orderId rejectReason => rfl
  | closed orderId => rfl
  | other => rfl

theorem creationQty_pos_of_starts {run : Run} {snap : ArbSnapshot}
    (starts : run.startsCreation snap = true) : creationQty snap > 0 := by
  rw [startsCreation, decide_eq_true_iff] at starts
  exact starts.2.2.2

theorem map_fst_legs (snap : ArbSnapshot) :
    (DORM_IDS.zip snap.dorms.toList).map Prod.fst = DORM_IDS :=
  List.map_fst_zip (by simp [DORM_IDS])

/-- How a creation that has sent its legs goes on. -/
inductive CreationGoesOn (world : World) (fuel : Nat) (run : Run) (snap : ArbSnapshot) :
    Run × Option Bool → Prop
  | legsMissing (missing : (run.sendLegs world snap).2 < 10) :
      CreationGoesOn world fuel run snap
        ((run.sendLegs world snap).1.unwindDormLongs world, some true)
  | polling (count : Nat) :
      CreationGoesOn world fuel run snap ((run.sendLegs world snap).1.tick count, none)
  | timedOut (count : Nat) :
      CreationGoesOn world fuel run snap
        (((((run.sendLegs world snap).1.tick count).act .fillTimeout).unwindDormLongs world).act
          (.setArbInProgress false), some true)
  | filled (count : Nat)
      (filled : ((run.sendLegs world snap).1.tick count).allFilled (creationQty snap) = true) :
      CreationGoesOn world fuel run snap
        (createAndSell world fuel (creationQty snap) ((run.sendLegs world snap).1.tick count) snap)

/-- Every creation that starts goes on in one of these ways. -/
theorem tryCreationArb_goesOn (world : World) (fuel : Nat) {run : Run} {snap : ArbSnapshot}
    (starts : run.startsCreation snap = true) :
    CreationGoesOn world fuel run snap (run.tryCreationArb world fuel snap) := by
  rw [tryCreationArb, if_neg (not_not.mpr starts)]
  dsimp only
  split
  · rename_i missing
    exact .legsMissing missing
  · obtain ⟨count, polled⟩ := pollFills_tick world (creationQty snap)
      ((run.sendLegs world snap).1.now world + OEClient.milliseconds 5000) fuel
      ((run.sendLegs world snap).1.tick 1)
    have ticked : ((run.sendLegs world snap).1.tick 1).tick count =
        (run.sendLegs world snap).1.tick (1 + count) := by
      rw [tick, tick, tick, Nat.add_assoc]
    rw [afterAcks, polled, ticked]
    split
    · exact .polling (1 + count)
    · exact .timedOut (1 + count)
    · rename_i found
      refine .filled (1 + count) ?_
      by_contra missing
      refine pollFills_ne_true world _ fuel ?_ found
      exact Bool.eq_false_of_not_eq_true missing

section Trading

variable (trading : Trading allowed) (world : World)

include trading

theorem afterAcks_extends (fuel : Nat) (run : Run) (snap : ArbSnapshot) :
    Extends allowed run (run.afterAcks world fuel snap).1 := by
  have polled : Extends allowed run (pollFills world (creationQty snap)
      (run.now world + OEClient.milliseconds 5000) fuel (run.tick 1)).1 :=
    (Extends.tick run 1).trans (pollFills_extends world _ _ _ _)
  rw [afterAcks]
  split
  · exact polled
  · dsimp only
    exact ((polled.trans (Extends.act (trading.timesOut _))).trans
      (unwindDormLongs_extends trading.toUnwinding world _)).trans
        (Extends.act (trading.setsInProgress _ false))
  · exact polled.trans (createAndSell_extends trading.toCreating world fuel _ _ snap)

theorem tryCreationArb_extends (fuel : Nat) (run : Run) (snap : ArbSnapshot) :
    Extends allowed run (run.tryCreationArb world fuel snap).1 := by
  have legs := sendLegs_extends trading.toUnwinding world run snap
  rw [tryCreationArb]
  dsimp only
  split
  · exact Extends.refl run
  · split
    · dsimp only
      exact legs.trans (unwindDormLongs_extends trading.toUnwinding world _)
    · exact legs.trans (afterAcks_extends trading world fuel _ snap)

theorem call_extends (run : Run) (botCall : BotCall) :
    Extends allowed run (run.call world botCall).1 := by
  cases botCall with
  | tryCreationArb fuel snap => exact tryCreationArb_extends trading world fuel run snap
  | arbTimeout => exact arbTimeout_extends trading.toUnwinding world run
  | waitForResponse id => exact waitForResponse_extends trading.toUnwinding world run id

/-- Whatever every call obeys, a sequence of calls obeys. -/
theorem perform_extends (run : Run) (calls : List BotCall) :
    Extends allowed run (perform world run calls) := by
  induction calls generalizing run with
  | nil => exact Extends.refl run
  | cons botCall calls inductionHypothesis =>
      have called := call_extends trading world run botCall
      rw [perform]
      split
      · exact called.trans (inductionHypothesis _)
      · exact called

end Trading

/-! ### A small market -/

/-- A clock that moves by a second from one reading to the next, and constant quotes. -/
def secondsWorld : World where
  clock reads := OEClient.milliseconds (1000 * reads)
  bestBidPrice _ _ := 100
  bestAskPrice _ _ := 90
  create _ amount := { success := true, message := "", undyBalance := amount }

/-- A bot that has just logged in. -/
def loggedInBot : BotState where
  manager := .empty
  client := { sessionId := 1, seqNum := 1, clientId := 8, liveOrders := ∅ }
  orderMap := ∅
  mmOrderMap := ∅
  nextOrderId := 1001
  blueBidId := 0
  blueAskId := 0
  arbInProgress := false
  arbStartTime := 0

/-- Five lots to be had of every dorm at 90, and UNDY bid at 1000. -/
def cheapDorms : ArbSnapshot where
  dorms := Vector.replicate 10 ⟨80, 90, 5, 5, 0⟩
  undyBestBidPrice := 1000
  undyBestAskPrice := 1010
  undyBestBidQty := 5
  undyBestAskQty := 5
  undyPosition := 0
  navAsk := 900
  navBid := 800
  anyDormAskMissing := false
  anyDormBidMissing := false

end Run

end HftAlgorithms
