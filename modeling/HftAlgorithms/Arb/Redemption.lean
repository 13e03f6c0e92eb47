/-
Module: HftAlgorithms.Arb.Redemption
Purpose: The redemption arb of `etf_arb.cpp`: buy UNDY, redeem it for the ten
  dorms, sell the dorms.
Trusted boundary: none
Main exports: EtfWorld, Run.waitForFill, Run.redemptionQty, Run.bookRedemption,
  Run.tryRedemptionArb
-/
import HftAlgorithms.Arb.ETFArb

namespace HftAlgorithms

/-- The world with the answers of the ETF service to `/redeem`. -/
structure EtfWorld extends World where
  redeem : Nat → Int32 → ETFResult

namespace Run

/-- The responses a `wait_for_fill` for `id` would read from here. -/
def fillScan (world : World) (run : Run) (id : UInt64) : StreamScan.Scan OeResponse Bool :=
  OEClient.fillScan (run.now world) (fun count => world.clock (run.clockReads + 1 + count)) id
    run.inbox

/-- `wait_for_fill`: the clock is read for the deadline and at the top of each iteration, of which
the last reads no response unless it returns on one. -/
def waitForFill (world : World) (run : Run) (id : UInt64) : Run × Bool :=
  let waited := run.fillScan world id
  let iterations := waited.read.length + if waited.verdict.isSome then 0 else 1
  (waited.read.foldl (fun run response => run.act (.receive response))
    { run.tick (1 + iterations) with inbox := waited.unread }, waited.verdict.getD false)

def redemptionQty (snap : ArbSnapshot) : Int32 :=
  let undy := min snap.undyBestAskQty.toInt32 (POSITION_LIMIT - snap.undyPosition)
  snap.dorms.toList.foldl
    (fun qty dorm => min (min qty dorm.bestBidQty.toInt32) (POSITION_LIMIT + dorm.position)) undy

/-- The checks before the first order is sent. -/
def startsRedemption (run : Run) (snap : ArbSnapshot) : Bool :=
  ¬ (snap.anyDormBidMissing ∨ snap.undyBestAskPrice = 0) ∧ ¬ run.state.arbInProgress ∧
    snap.navBid - snap.undyBestAskPrice > MIN_EDGE ∧ redemptionQty snap > 0

/-- The fills that `/redeem` stands for, booked at the prices the bot sees. -/
def bookRedemption (world : World) (qty : Int32) (run : Run) (snap : ArbSnapshot) : Run :=
  let undy := run.act (.book SYM_UNDY .SELL qty.toUInt32 snap.undyBestAskPrice)
  DORM_IDS.foldl
    (fun run symbol =>
      run.quoted.act (.book symbol .BUY qty.toUInt32 (run.bestAsk world symbol)))
    undy

/-- Step 3: the ten sells, with their ids. -/
def fireSells (qty : Int32) (run : Run) (snap : ArbSnapshot) : Run × List UInt64 :=
  (DORM_IDS.zip snap.dorms.toList).foldl
    (fun fired leg =>
      (fired.1.sendOrderNoWait leg.1 .SELL qty.toUInt32 leg.2.bestBidPrice,
        fired.2 ++ [fired.1.state.nextOrderId]))
    (run, [])

/-- From the confirmed fill on: steps 2 and 3.  The call of `/redeem` changes nothing in the bot; a
call that fails is not unwound. -/
def redeemAndSell (world : EtfWorld) (qty : Int32) (run : Run) (snap : ArbSnapshot) : Run × Bool :=
  let called := { run with etfCalls := run.etfCalls + 1 }
  if ¬ (world.redeem run.etfCalls qty).success then (called, true)
  else
    let booked := bookRedemption world.toWorld qty called snap
    let fired := fireSells qty booked snap
    ((fired.1.collect world.toWorld fired.2).1, true)

/-- Step 1: the UNDY buy is sent, and the wait for its response has returned. -/
def buyUndy (world : World) (run : Run) (snap : ArbSnapshot) : Run × Bool :=
  let started := ((run.act (.setArbInProgress true)).tick 1).act
    (.setArbStartTime (run.now world))
  started.sendNewOrder world SYM_UNDY .BUY (redemptionQty snap).toUInt32 snap.undyBestAskPrice

/-- `try_redemption_arb` -/
def tryRedemptionArb (world : EtfWorld) (run : Run) (snap : ArbSnapshot) : Run × Bool :=
  if ¬ run.startsRedemption snap then (run, false)
  else
    let bought := run.buyUndy world.toWorld snap
    if ¬ bought.2 then (bought.1.act (.setArbInProgress false), false)
    else
      let filled := bought.1.waitForFill world.toWorld run.state.nextOrderId
      if ¬ filled.2 then (filled.1.act (.setArbInProgress false), true)
      else redeemAndSell world (redemptionQty snap) filled.1 snap

end Run

end HftAlgorithms
