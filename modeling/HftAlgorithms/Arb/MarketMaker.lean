/-
Module: HftAlgorithms.Arb.MarketMaker
Purpose: `run_with_mm` of `etf_arb.cpp`: the PnL guard, the ETF arb, and the BLUE
  market maker, which share one bot thread, its two order maps and its socket.
Trusted boundary: none
Main exports: MmQuote, MmState, LoopAction, MmState.act, SetOrder, LoopWorld,
  LoopRun, LoopRun.safeDelete, LoopRun.blueMarketMaker, LoopRun.arbStep,
  LoopRun.runGuard, LoopRun.pnlGuard, LoopRun.runWithMm
-/
import Mathlib.Data.Finset.Sort
import HftAlgorithms.Arb.Redemption

namespace HftAlgorithms

/-! ### State -/

/-- The three orders that the market maker keeps an id of. -/
inductive MmQuote where
  | bid
  | ask
  | flatten
deriving DecidableEq, Repr

/-- Only the ask sells. -/
def MmQuote.side : MmQuote → Side
  | .bid => .BUY
  | .ask => .SELL
  | .flatten => .BUY

/-- The bot with the locals of `run_with_mm`. -/
structure MmState where
  bot : BotState
  mmOrderId : UInt64
  blueFlattenId : UInt64
  lastBlueMid : Int32

/-- The atomic actions of the loop.  `forget` sets the id of a quote to zero. -/
inductive LoopAction where
  | bot (action : BotAction)
  | deleteOrder (id : UInt64)
  | sendMmOrder (quote : MmQuote) (qty : UInt32) (price : Int32)
  | forget (quote : MmQuote)
  | setLastBlueMid (mid : Int32)
deriving DecidableEq, Repr

namespace MmState

/-- The locals as `run_with_mm` initializes them. -/
def new (bot : BotState) : MmState :=
  { bot := bot, mmOrderId := 90000, blueFlattenId := 0, lastBlueMid := 0 }

/-- `blue_bid_id_`, `blue_ask_id_` or `blue_flatten_id` -/
def quoteId (state : MmState) : MmQuote → UInt64
  | .bid => state.bot.blueBidId
  | .ask => state.bot.blueAskId
  | .flatten => state.blueFlattenId

def setQuoteId (state : MmState) (quote : MmQuote) (id : UInt64) : MmState :=
  match quote with
  | .bid => { state with bot := { state.bot with blueBidId := id } }
  | .ask => { state with bot := { state.bot with blueAskId := id } }
  | .flatten => { state with blueFlattenId := id }

/-- The next id, the routing entry and the request of a BLUE order. -/
def sendMmOrder (state : MmState) (quote : MmQuote) (qty : UInt32) (price : Int32) : MmState :=
  let id := state.mmOrderId + 1
  let sent := { state.setQuoteId quote id with mmOrderId := id }
  { sent with
    bot := { sent.bot with
      mmOrderMap := sent.bot.mmOrderMap.insert id (SYM_BLUE, quote.side)
      client := (sent.bot.client.sendNewOrderNoWait id SYM_BLUE quote.side qty price).1 } }

def act (state : MmState) : LoopAction → MmState
  | .bot action => { state with bot := state.bot.act action }
  | .deleteOrder _ =>
      { state with bot := { state.bot with client := state.bot.client.header.1 } }
  | .sendMmOrder quote qty price => state.sendMmOrder quote qty price
  | .forget quote => state.setQuoteId quote 0
  | .setLastBlueMid mid => { state with lastBlueMid := mid }

end MmState

/-! ### Runs -/

/-- An iteration order of `live_orders_`: every element, once. -/
structure SetOrder where
  list : Finset UInt64 → List UInt64
  nodup : ∀ set, (list set).Nodup
  mem_list : ∀ set id, id ∈ list set ↔ id ∈ set

/-- Increasing ids are one such order. -/
def SetOrder.ascending : SetOrder where
  list set := set.sort (· ≤ ·)
  nodup set := set.sort_nodup (· ≤ ·)
  mem_list set _ := set.mem_sort (· ≤ ·)

/-- What the loop does not decide itself: besides the `EtfWorld`, the quantities in the book caches,
how the hash set lists the live orders, and whether `running_` is still set. -/
structure LoopWorld extends EtfWorld where
  bestBidQty : Nat → UInt32 → UInt32
  bestAskQty : Nat → UInt32 → UInt32
  setOrder : SetOrder
  running : Nat → Bool

/-- A run of the loop so far. -/
structure LoopRun where
  state : MmState
  log : List LoopAction
  inbox : List OeResponse
  clockReads : Nat
  quoteReads : Nat
  etfCalls : Nat
  iterations : Nat

namespace LoopRun

def new (state : MmState) (inbox : List OeResponse) : LoopRun :=
  { state := state, log := [], inbox := inbox, clockReads := 0, quoteReads := 0, etfCalls := 0,
    iterations := 0 }

def act (loop : LoopRun) (action : LoopAction) : LoopRun :=
  { loop with state := loop.state.act action, log := loop.log ++ [action] }

/-- The loop as the functions of the arbs see it. -/
def toRun (loop : LoopRun) : Run :=
  { state := loop.state.bot, log := [], inbox := loop.inbox, clockReads := loop.clockReads,
    quoteReads := loop.quoteReads, etfCalls := loop.etfCalls }

/-- What one of those functions has done to the bot. -/
def absorb (loop : LoopRun) (run : Run) : LoopRun :=
  { loop with
    state := { loop.state with bot := run.state }
    log := loop.log ++ run.log.map .bot
    inbox := run.inbox
    clockReads := run.clockReads
    quoteReads := run.quoteReads
    etfCalls := run.etfCalls }

def getPosition (loop : LoopRun) (symbol : UInt32) : Int32 :=
  loop.state.bot.manager.getPosition symbol

def quoteId (loop : LoopRun) (quote : MmQuote) : UInt64 := loop.state.quoteId quote

def bestBid (world : World) (loop : LoopRun) (symbol : UInt32) : Int32 :=
  loop.toRun.bestBid world symbol

def bestAsk (world : World) (loop : LoopRun) (symbol : UInt32) : Int32 :=
  loop.toRun.bestAsk world symbol

/-- A cached price has been read. -/
def quoted (loop : LoopRun) : LoopRun := { loop with quoteReads := loop.quoteReads + 1 }

def waitForResponse (world : World) (loop : LoopRun) (id : UInt64) : LoopRun :=
  loop.absorb (loop.toRun.waitForResponse world id).1

/-- `delete_order`, whose result every caller here ignores. -/
def deleteOrder (world : World) (loop : LoopRun) (id : UInt64) : LoopRun :=
  (loop.act (.deleteOrder id)).waitForResponse world id

/-- `safe_delete`: the id is forgotten whatever the answer was. -/
def safeDelete (world : World) (loop : LoopRun) (quote : MmQuote) : LoopRun :=
  if loop.quoteId quote = 0 then loop
  else (loop.deleteOrder world (loop.quoteId quote)).act (.forget quote)

/-- An order under the next market-maker id. -/
def sendMmOrder (world : World) (loop : LoopRun) (quote : MmQuote) (qty : UInt32) (price : Int32) :
    LoopRun :=
  (loop.act (.sendMmOrder quote qty price)).waitForResponse world (loop.state.mmOrderId + 1)

/-! ### The BLUE market maker -/

/-- The position guard of the bid. -/
def guardBid (world : World) (mmLimit bluePos : Int32) (loop : LoopRun) : LoopRun :=
  if bluePos ≥ mmLimit - 1 ∧ loop.quoteId .bid ≠ 0 then loop.safeDelete world .bid else loop

/-- The position guard of the ask. -/
def guardAsk (world : World) (mmLimit bluePos : Int32) (loop : LoopRun) : LoopRun :=
  if bluePos ≤ -(mmLimit - 1) ∧ loop.quoteId .ask ≠ 0 then loop.safeDelete world .ask else loop

/-- Buy back a short position, unless an order for that is remembered. -/
def flattenShort (world : World) (bluePos : Int32) (loop : LoopRun) : LoopRun :=
  if bluePos < 0 ∧ loop.quoteId .flatten = 0 then
    let ask := loop.bestAsk world SYM_BLUE
    if ask > 0 then loop.quoted.sendMmOrder world .flatten (-bluePos).toUInt32 ask
    else loop.quoted
  else loop

/-- The flatten order is forgotten once the position is not short. -/
def forgetFlatten (bluePos : Int32) (loop : LoopRun) : LoopRun :=
  if bluePos ≥ 0 then loop.act (.forget .flatten) else loop

def quoteBid (world : World) (mmLimit : Int32) (blueTick : UInt32) (mid : Int32) (loop : LoopRun) :
    LoopRun :=
  if loop.getPosition SYM_BLUE < mmLimit then
    loop.sendMmOrder world .bid 1 (mid.toUInt32 - blueTick).toInt32
  else loop

def quoteAsk (world : World) (mmLimit : Int32) (blueTick : UInt32) (mid : Int32) (loop : LoopRun) :
    LoopRun :=
  if loop.getPosition SYM_BLUE > -mmLimit then
    loop.sendMmOrder world .ask 1 (mid.toUInt32 + blueTick).toInt32
  else loop

/-- The two quotes around a new mid price, once the old ones have been deleted.  The position is
read again for each. -/
def quoteAround (world : World) (mmLimit : Int32) (blueTick : UInt32) (mid : Int32)
    (loop : LoopRun) : LoopRun :=
  let deleted := (loop.safeDelete world .bid).safeDelete world .ask
  let quoted :=
    (deleted.quoteBid world mmLimit blueTick mid).quoteAsk world mmLimit blueTick mid
  quoted.act (.setLastBlueMid mid)

/-- The mid price on the tick grid. -/
def blueMid (blueTick : UInt32) (bid ask : Int32) : Int32 :=
  ((bid + ask) / 2 / blueTick.toInt32) * blueTick.toInt32

/-- New quotes when the mid price has moved and no arb is in progress. -/
def requote (world : World) (mmLimit : Int32) (blueTick : UInt32) (loop : LoopRun) : LoopRun :=
  let bid := loop.bestBid world SYM_BLUE
  let ask := loop.quoted.bestAsk world SYM_BLUE
  let read := loop.quoted.quoted
  if bid > 0 ∧ ask > 0 then
    let mid := blueMid blueTick bid ask
    if mid ≠ read.state.lastBlueMid ∧ ¬ read.state.bot.arbInProgress then
      read.quoteAround world mmLimit blueTick mid
    else read
  else read

/-- The part of an iteration that makes the market.  The position is read once for the guards and
the flatten order. -/
def blueMarketMaker (world : World) (mmLimit : Int32) (blueTick : UInt32) (loop : LoopRun) :
    LoopRun :=
  let bluePos := loop.getPosition SYM_BLUE
  let guarded := (loop.guardBid world mmLimit bluePos).guardAsk world mmLimit bluePos
  let flattened := guarded.flattenShort world bluePos
  (flattened.forgetFlatten bluePos).requote world mmLimit blueTick

/-- What happens to the market maker: a pass through its part of the loop and, between two passes, a
wait of the other parts for a response of their own, and the flag they set. -/
inductive MmEvent where
  | pass
  | waitElsewhere (id : UInt64)
  | setArbInProgress (inProgress : Bool)
deriving DecidableEq, Repr

def mmStep (world : World) (mmLimit : Int32) (blueTick : UInt32) (loop : LoopRun) :
    MmEvent → LoopRun
  | .pass => loop.blueMarketMaker world mmLimit blueTick
  | .waitElsewhere id => loop.waitForResponse world id
  | .setArbInProgress inProgress => loop.act (.bot (.setArbInProgress inProgress))

/-! ### The arb -/

/-- Send an order for the whole position the other way; the loop over symbols of the PnL guard and
of the clean-up after an arb. -/
def flattenSymbol (world : World) (loop : LoopRun) (symbol : UInt32) : LoopRun :=
  let pos := loop.getPosition symbol
  if pos = 0 then loop
  else
    let side : Side := if pos > 0 then .SELL else .BUY
    let price := if pos > 0 then loop.bestBid world symbol else loop.bestAsk world symbol
    if price ≤ 0 then loop.quoted
    else
      loop.absorb
        (loop.quoted.toRun.sendNewOrder world symbol side pos.abs.toUInt32 price).1

/-- No dorm is long and UNDY is flat. -/
def arbFlat (loop : LoopRun) : Bool :=
  (DORM_IDS.all fun symbol => loop.getPosition symbol ≤ 0) ∧ loop.getPosition SYM_UNDY = 0

/-- The caches as `snapshot()` reads them, one pass counted as one reading. -/
def snapshot (world : LoopWorld) (loop : LoopRun) : ArbSnapshot :=
  let manager := loop.state.bot.manager
  let seen : SymbolManager :=
    { manager with
      slots := fun symbol =>
        { manager.slots symbol with
          bestBidPrice := world.bestBidPrice loop.quoteReads symbol
          bestBidQty := world.bestBidQty loop.quoteReads symbol
          bestAskPrice := world.bestAskPrice loop.quoteReads symbol
          bestAskQty := world.bestAskQty loop.quoteReads symbol } }
  seen.snapshot

/-- The ETF arb part of an iteration.  The second component is false when a loop in it has not
ended within `fuel` turns. -/
def arbStep (world : LoopWorld) (fuel : Nat) (loop : LoopRun) : LoopRun × Bool :=
  if loop.state.bot.arbInProgress then
    if loop.arbFlat then
      ((DORM_IDS.foldl (flattenSymbol world.toWorld) loop).act (.bot (.setArbInProgress false)),
        true)
    else
      let timed := { loop with clockReads := loop.clockReads + 1 }
      if loop.toRun.now world.toWorld - loop.state.bot.arbStartTime > OEClient.milliseconds 3000
      then (timed.absorb (timed.toRun.arbTimeout world.toWorld), true)
      else (timed, true)
  else
    let snap := loop.snapshot world
    let tried := loop.quoted.toRun.tryCreationArb world.toWorld fuel snap
    match tried.2 with
    | none => (loop.absorb tried.1, false)
    | some true => (loop.absorb tried.1, true)
    | some false => (loop.absorb (tried.1.tryRedemptionArb world.toEtfWorld snap).1, true)

/-! ### The PnL guard -/

/-- `cancel_all_open_orders`: the live orders are copied before the first delete. -/
def cancelAllOpenOrders (world : LoopWorld) (loop : LoopRun) : LoopRun :=
  (world.setOrder.list loop.state.bot.client.liveOrders).foldl (deleteOrder world.toWorld) loop

def flat (loop : LoopRun) : Bool := symbolList.all fun symbol => loop.getPosition symbol = 0

/-- Sleep until every position is flat.  Nothing is read from the socket here. -/
def waitUntilFlat : Nat → LoopRun → Bool
  | 0, _ => false
  | fuel + 1, loop => if loop.flat then true else waitUntilFlat fuel loop

/-- The guard of `run`: cancel everything, send an order against every position, and wait until they
are flat.  The second component is false when they are not within `fuel` turns. -/
def runGuard (world : LoopWorld) (fuel : Nat) (loop : LoopRun) : LoopRun × Bool :=
  let unwound :=
    symbolList.foldl (flattenSymbol world.toWorld) (loop.cancelAllOpenOrders world)
  (unwound, waitUntilFlat fuel unwound)

/-- The guard of `run_with_mm`: cancel everything, send an order against every position, and wait
until they are flat.  The second component is false when they are not within `fuel` turns. -/
def pnlGuard (world : LoopWorld) (fuel : Nat) (loop : LoopRun) : LoopRun × Bool :=
  let deleted := (loop.safeDelete world.toWorld .bid).safeDelete world.toWorld .ask
  let unwound :=
    symbolList.foldl (flattenSymbol world.toWorld) (deleted.cancelAllOpenOrders world)
  (unwound, waitUntilFlat fuel unwound)

/-! ### The loop -/

/-- One iteration, and whether the loops in it have ended. -/
def iteration (world : LoopWorld) (mmLimit : Int32) (blueTick : UInt32) (fuel : Nat)
    (loop : LoopRun) : LoopRun × Bool :=
  if loop.state.bot.manager.pnlNearLimit then loop.pnlGuard world fuel
  else
    let traded := loop.arbStep world fuel
    if traded.2 then (traded.1.blueMarketMaker world.toWorld mmLimit blueTick, true) else traded

/-- `run_with_mm`, at most `turns` iterations of it; a loop within one that has not ended within
`fuel` turns keeps the thread.  The second component is true when the loop has been stopped and the
quotes are cleaned up. -/
def runWithMm (world : LoopWorld) (mmLimit : Int32) (blueTick : UInt32) (fuel : Nat) :
    Nat → LoopRun → LoopRun × Bool
  | 0, loop => (loop, false)
  | turns + 1, loop =>
      if world.running loop.iterations then
        let turned := { loop with iterations := loop.iterations + 1 }.iteration world mmLimit
          blueTick fuel
        if turned.2 then runWithMm world mmLimit blueTick fuel turns turned.1
        else (turned.1, false)
      else
        ((loop.safeDelete world.toWorld .bid).safeDelete world.toWorld .ask, true)

end LoopRun

end HftAlgorithms
