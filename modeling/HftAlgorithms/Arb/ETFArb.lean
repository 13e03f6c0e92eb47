/-
Module: HftAlgorithms.Arb.ETFArb
Purpose: The creation arb and the forced unwinds of `etf_arb.cpp`, over the
  order-entry stream: what the bot sends, what it reads while it waits, and what
  it books, as a log of atomic actions.
Trusted boundary: none
Main exports: BotState, BotAction, BotState.act, World, Run,
  Run.waitForResponse, Run.unwindDormLongs, Run.tryCreationArb, Run.arbTimeout,
  BotCall, Run.perform
-/
import HftAlgorithms.MarketData.SymbolManager
import HftAlgorithms.OrderEntry.OEClient

namespace HftAlgorithms

/-! ### State -/

/-- `OrderMap`: the symbol and the side an order was sent for. -/
abbrev OrderMap := FiniteMap UInt64 (UInt32 × Side)

structure ETFResult where
  success : Bool
  message : String
  undyBalance : Int32
deriving DecidableEq, Repr, Inhabited

/-- What the bot thread reads and writes. -/
structure BotState where
  manager : SymbolManager
  client : OEClient
  orderMap : OrderMap
  mmOrderMap : OrderMap
  nextOrderId : UInt64
  blueBidId : UInt64
  blueAskId : UInt64
  arbInProgress : Bool
  arbStartTime : Int

/-- The atomic actions of the bot, in the order in which it takes them. -/
inductive BotAction where
  | sendOrder (symbol : UInt32) (side : Side) (qty : UInt32) (price : Int32)
  | receive (response : OeResponse)
  | book (symbol : UInt32) (side : Side) (qty : UInt32) (price : Int32)
  | callCreate (amount : Int32) (result : ETFResult)
  | fillTimeout
  | setArbInProgress (inProgress : Bool)
  | setArbStartTime (time : Int)
deriving DecidableEq, Repr

namespace BotState

/-- The fill callback: arb orders first, then market-maker orders. -/
def fillCallback (bot : BotState) (fill : FillEvent) : BotState :=
  match bot.orderMap.lookup fill.orderId with
  | some (symbol, side) =>
      { bot with
        manager := bot.manager.onFill symbol side fill.qty fill.price
        orderMap := if fill.closed then bot.orderMap.erase fill.orderId else bot.orderMap }
  | none =>
      match bot.mmOrderMap.lookup fill.orderId with
      | some (symbol, side) =>
          let booked := { bot with manager := bot.manager.onFill symbol side fill.qty fill.price }
          if fill.closed then
            { booked with
              mmOrderMap := bot.mmOrderMap.erase fill.orderId
              blueBidId := if fill.orderId = bot.blueBidId then 0 else bot.blueBidId
              blueAskId := if fill.orderId = bot.blueAskId then 0 else bot.blueAskId }
          else booked
      | none => bot

/-- The callbacks that `ETFArb` and `main` install; none is installed for rejects. -/
def callback (bot : BotState) : Callback → BotState
  | .onFill event => bot.fillCallback event
  | .onReject _ => bot
  | .onClose orderId => { bot with mmOrderMap := bot.mmOrderMap.erase orderId }

def act (bot : BotState) : BotAction → BotState
  | .sendOrder symbol side qty price =>
      { bot with
        nextOrderId := bot.nextOrderId + 1
        orderMap := bot.orderMap.insert bot.nextOrderId (symbol, side)
        client := (bot.client.sendNewOrderNoWait bot.nextOrderId symbol side qty price).1 }
  | .receive response =>
      response.callbacks.foldl callback { bot with client := bot.client.receive response }
  | .book symbol side qty price =>
      { bot with manager := bot.manager.onFill symbol side qty price }
  | .callCreate _ _ => bot
  | .fillTimeout => bot
  | .setArbInProgress inProgress => { bot with arbInProgress := inProgress }
  | .setArbStartTime time => { bot with arbStartTime := time }

end BotState

/-! ### Runs

The bot thread is the only reader of the order-entry socket.  Everything it does not decide
itself is in the `World`: each reading of the clock and of the book caches, which the market-data
thread writes, and each answer of the ETF service. -/

structure World where
  clock : Nat → Int
  bestBidPrice : Nat → UInt32 → Int32
  bestAskPrice : Nat → UInt32 → Int32
  create : Nat → Int32 → ETFResult

/-- A run so far: the state, the log that led to it, the responses not yet read, and how often
the world has been read. -/
structure Run where
  state : BotState
  log : List BotAction
  inbox : List OeResponse
  clockReads : Nat
  quoteReads : Nat
  etfCalls : Nat

namespace Run

def new (state : BotState) (inbox : List OeResponse) : Run :=
  { state := state, log := [], inbox := inbox, clockReads := 0, quoteReads := 0, etfCalls := 0 }

def act (run : Run) (action : BotAction) : Run :=
  { run with state := run.state.act action, log := run.log ++ [action] }

def getPosition (run : Run) (symbol : UInt32) : Int32 :=
  run.state.manager.getPosition symbol

/-- The next reading of the clock. -/
def now (world : World) (run : Run) : Int := world.clock run.clockReads

/-- The clock has been read `count` times. -/
def tick (run : Run) (count : Nat) : Run := { run with clockReads := run.clockReads + count }

/-- The next reading of a best bid. -/
def bestBid (world : World) (run : Run) (symbol : UInt32) : Int32 :=
  world.bestBidPrice run.quoteReads symbol

/-- The next reading of a best ask. -/
def bestAsk (world : World) (run : Run) (symbol : UInt32) : Int32 :=
  world.bestAskPrice run.quoteReads symbol

/-- A cached price has been read. -/
def quoted (run : Run) : Run := { run with quoteReads := run.quoteReads + 1 }

/-- The responses a wait for `id` would read from here. -/
def waitScan (world : World) (run : Run) (id : UInt64) : StreamScan.Scan OeResponse Bool :=
  OEClient.waitScan (run.now world) ((run.tick 1).now world) id run.inbox

/-- `wait_for_response`: every response it reads is handled as it is read. -/
def waitForResponse (world : World) (run : Run) (id : UInt64) : Run × Bool :=
  let waited := run.waitScan world id
  (waited.read.foldl (fun run response => run.act (.receive response))
    { run.tick 2 with inbox := waited.unread }, waited.verdict.getD false)

/-- `next_id`, the routing entry and the request; the id is that of the state before. -/
def sendOrderNoWait (run : Run) (symbol : UInt32) (side : Side) (qty : UInt32) (price : Int32) :
    Run :=
  run.act (.sendOrder symbol side qty price)

def sendNewOrder (world : World) (run : Run) (symbol : UInt32) (side : Side) (qty : UInt32)
    (price : Int32) : Run × Bool :=
  (run.sendOrderNoWait symbol side qty price).waitForResponse world run.state.nextOrderId

/-- Wait for each id in turn and count the waits that return true. -/
def collect (world : World) : Run → List UInt64 → Run × Nat
  | run, [] => (run, 0)
  | run, id :: ids =>
      let waited := run.waitForResponse world id
      let rest := collect world waited.1 ids
      (rest.1, rest.2 + if waited.2 then 1 else 0)

/-! ### Forced unwinds -/

/-- One turn of the first loop of `unwind_dorm_longs`, with the ids sent so far. -/
def unwindLeg (world : World) (fired : Run × List UInt64) (symbol : UInt32) :
    Run × List UInt64 :=
  let run := fired.1
  let pos := run.getPosition symbol
  if pos > 0 then
    let bid := run.bestBid world symbol
    if bid ≤ 0 then (run.quoted, fired.2)
    else (run.quoted.sendOrderNoWait symbol .SELL pos.toUInt32 bid,
      fired.2 ++ [run.state.nextOrderId])
  else if pos ≤ -8 then
    let ask := run.bestAsk world symbol
    if ask ≤ 0 then (run.quoted, fired.2)
    else (run.quoted.sendOrderNoWait symbol .BUY pos.abs.toUInt32 ask,
      fired.2 ++ [run.state.nextOrderId])
  else fired

def unwindDormLongs (world : World) (run : Run) : Run :=
  let fired := DORM_IDS.foldl (unwindLeg world) (run, [])
  (fired.1.collect world fired.2).1

/-- The branch of `run` and `run_with_mm` for an arb older than three seconds. -/
def arbTimeout (world : World) (run : Run) : Run :=
  let unwound := run.unwindDormLongs world
  let undyPos := unwound.getPosition SYM_UNDY
  let sold :=
    if undyPos > 0 then
      let bid := unwound.bestBid world SYM_UNDY
      if bid > 0 then
        (unwound.quoted.sendNewOrder world SYM_UNDY .SELL undyPos.toUInt32 bid).1
      else unwound.quoted
    else unwound
  sold.act (.setArbInProgress false)

/-! ### The creation arb -/

def MIN_EDGE : Int32 := 0

def creationQty (snap : ArbSnapshot) : Int32 :=
  let dorms := snap.dorms.toList.foldl
    (fun qty dorm => min (min qty dorm.bestAskQty.toInt32) (POSITION_LIMIT - dorm.position))
    snap.undyBestBidQty.toInt32
  min dorms (POSITION_LIMIT + snap.undyPosition)

/-- The checks before the first order is sent. -/
def startsCreation (run : Run) (snap : ArbSnapshot) : Bool :=
  ¬ (snap.anyDormAskMissing ∨ snap.undyBestBidPrice = 0) ∧ ¬ run.state.arbInProgress ∧
    snap.undyBestBidPrice - snap.navAsk > MIN_EDGE ∧ creationQty snap > 0

/-- Step 1: the ten buys, with their ids. -/
def fireLegs (qty : Int32) (run : Run) (snap : ArbSnapshot) : Run × List UInt64 :=
  (DORM_IDS.zip snap.dorms.toList).foldl
    (fun fired leg =>
      (fired.1.sendOrderNoWait leg.1 .BUY qty.toUInt32 leg.2.bestAskPrice,
        fired.2 ++ [fired.1.state.nextOrderId]))
    (run, [])

def allFilled (run : Run) (qty : Int32) : Bool :=
  DORM_IDS.all fun symbol => qty ≤ run.getPosition symbol

/-- Step 3: look at the positions until they are there or the deadline has passed; `none` when
the loop has not ended after `fuel` turns.  Nothing is read from the socket. -/
def pollFills (world : World) (qty : Int32) (deadline : Int) : Nat → Run → Run × Option Bool
  | 0, run => (run, none)
  | fuel + 1, run =>
      if run.allFilled qty then (run, some true)
      else if run.now world > deadline then (run.tick 1, some false)
      else pollFills world qty deadline fuel (run.tick 1)

/-- The fills that `/create` stands for, booked at the prices the bot sees. -/
def bookCreation (world : World) (qty : Int32) (run : Run) (snap : ArbSnapshot) : Run :=
  let dorms := DORM_IDS.foldl
    (fun run symbol =>
      run.quoted.act (.book symbol .SELL qty.toUInt32 (run.bestBid world symbol)))
    run
  dorms.act (.book SYM_UNDY .BUY qty.toUInt32 snap.undyBestBidPrice)

/-- Step 5: sell the UNDY position, at most five times; a missing bid does not count as an
attempt.  `none` when the loop has not ended after `fuel` turns. -/
def sellUndy (world : World) : Nat → Nat → Int32 → Run → Run × Option Unit
  | 0, _, _, run => (run, none)
  | fuel + 1, attempts, undyPos, run =>
      if undyPos > 0 ∧ attempts < 5 then
        let bid := run.bestBid world SYM_UNDY
        if bid ≤ 0 then
          sellUndy world fuel attempts (run.quoted.getPosition SYM_UNDY) run.quoted
        else
          let sold := (run.quoted.sendNewOrder world SYM_UNDY .SELL undyPos.toUInt32 bid).1
          sellUndy world fuel (attempts + 1) (sold.getPosition SYM_UNDY) sold
      else (run, some ())

/-- From the confirmed fills on: steps 4 and 5. -/
def createAndSell (world : World) (fuel : Nat) (qty : Int32) (run : Run) (snap : ArbSnapshot) :
    Run × Option Bool :=
  let result := world.create run.etfCalls qty
  let called := { run.act (.callCreate qty result) with etfCalls := run.etfCalls + 1 }
  if ¬ result.success then (called.unwindDormLongs world, some true)
  else
    let booked := bookCreation world qty called snap
    let sold := sellUndy world fuel 0 (booked.getPosition SYM_UNDY) booked
    (sold.1, sold.2.map fun _ => true)

/-- Steps 1 and 2: the ten buys are sent, and ten waits have returned. -/
def sendLegs (world : World) (run : Run) (snap : ArbSnapshot) : Run × Nat :=
  let started := ((run.act (.setArbInProgress true)).tick 1).act
    (.setArbStartTime (run.now world))
  let fired := fireLegs (creationQty snap) started snap
  fired.1.collect world fired.2

/-- Step 3 and what follows it. -/
def afterAcks (world : World) (fuel : Nat) (run : Run) (snap : ArbSnapshot) : Run × Option Bool :=
  let qty := creationQty snap
  let polled := pollFills world qty (run.now world + OEClient.milliseconds 5000) fuel (run.tick 1)
  match polled.2 with
  | none => (polled.1, none)
  | some false =>
      (((polled.1.act .fillTimeout).unwindDormLongs world).act (.setArbInProgress false),
        some true)
  | some true => createAndSell world fuel qty polled.1 snap

/-- `try_creation_arb`.  The result is `none` while a loop has not ended within `fuel` turns. -/
def tryCreationArb (world : World) (fuel : Nat) (run : Run) (snap : ArbSnapshot) :
    Run × Option Bool :=
  if ¬ run.startsCreation snap then (run, some false)
  else
    let legs := run.sendLegs world snap
    if legs.2 < 10 then (legs.1.unwindDormLongs world, some true)
    else legs.1.afterAcks world fuel snap

end Run

/-! ### Sequences of calls -/

/-- The calls of the main loops that close long positions, and the waits for other orders between
them, which read the same socket. -/
inductive BotCall where
  | tryCreationArb (fuel : Nat) (snap : ArbSnapshot)
  | arbTimeout
  | waitForResponse (id : UInt64)

namespace Run

/-- One call, and whether its loops have ended. -/
def call (world : World) (run : Run) : BotCall → Run × Bool
  | .tryCreationArb fuel snap =>
      let tried := run.tryCreationArb world fuel snap
      (tried.1, tried.2.isSome)
  | .arbTimeout => (run.arbTimeout world, true)
  | .waitForResponse id => ((run.waitForResponse world id).1, true)

/-- Calls one after the other; a loop that has not ended keeps the thread. -/
def perform (world : World) : Run → List BotCall → Run
  | run, [] => run
  | run, botCall :: calls =>
      let called := run.call world botCall
      if called.2 then perform world called.1 calls else called.1

end Run

end HftAlgorithms
