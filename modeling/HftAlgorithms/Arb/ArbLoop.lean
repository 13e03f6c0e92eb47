/-
Module: HftAlgorithms.Arb.ArbLoop
Purpose: `run` of `etf_arb.cpp`: the PnL guard and the ETF arb without the market
  maker.  Unlike `run_with_mm` it waits for every position to be exactly flat, and
  goes round again after each wait.
Trusted boundary: none
Main exports: LoopRun.legsFlat, LoopRun.expire, LoopRun.tryArbs, LoopRun.arbIteration,
  LoopRun.runArb
-/
import HftAlgorithms.Arb.MarketMaker

namespace HftAlgorithms

namespace LoopRun

/-- All dorms and UNDY are flat. -/
def legsFlat (loop : LoopRun) : Bool :=
  (DORM_IDS.all fun symbol => loop.getPosition symbol = 0) ∧ loop.getPosition SYM_UNDY = 0

/-- An arb older than three seconds is unwound. -/
def expire (world : World) (loop : LoopRun) : LoopRun :=
  let timed := { loop with clockReads := loop.clockReads + 1 }
  if loop.toRun.now world - loop.state.bot.arbStartTime > OEClient.milliseconds 3000 then
    timed.absorb (timed.toRun.arbTimeout world)
  else timed

/-- Look for an opportunity.  The second component is false when a loop of an arb has not ended
within `fuel` turns. -/
def tryArbs (world : LoopWorld) (fuel : Nat) (loop : LoopRun) : LoopRun × Bool :=
  let snap := loop.snapshot world
  let tried := loop.quoted.toRun.tryCreationArb world.toWorld fuel snap
  match tried.2 with
  | none => (loop.absorb tried.1, false)
  | some true => (loop.absorb tried.1, true)
  | some false => (loop.absorb (tried.1.tryRedemptionArb world.toEtfWorld snap).1, true)

/-- One iteration, and whether the loops in it have ended. -/
def arbIteration (world : LoopWorld) (fuel : Nat) (loop : LoopRun) : LoopRun × Bool :=
  if loop.state.bot.manager.pnlNearLimit then loop.runGuard world fuel
  else if loop.state.bot.arbInProgress then
    if loop.legsFlat then (loop.act (.bot (.setArbInProgress false)), true)
    else (loop.expire world.toWorld, true)
  else loop.tryArbs world fuel

/-- `run`, at most `turns` iterations of it.  The second component is true when the loop has been
stopped. -/
def runArb (world : LoopWorld) (fuel : Nat) : Nat → LoopRun → LoopRun × Bool
  | 0, loop => (loop, false)
  | turns + 1, loop =>
      if world.running loop.iterations then
        let turned := { loop with iterations := loop.iterations + 1 }.arbIteration world fuel
        if turned.2 then runArb world fuel turns turned.1 else (turned.1, false)
      else (loop, true)

/-! ### The part that both loops have -/

/-- `run_with_mm` differs in what it takes for flat and in what it cleans up. -/
theorem arbStep_eq (world : LoopWorld) (fuel : Nat) (loop : LoopRun) :
    loop.arbStep world fuel =
      if loop.state.bot.arbInProgress then
        if loop.arbFlat then
          ((DORM_IDS.foldl (flattenSymbol world.toWorld) loop).act
            (.bot (.setArbInProgress false)), true)
        else (loop.expire world.toWorld, true)
      else loop.tryArbs world fuel := by
  rw [arbStep, expire, tryArbs]
  split
  · split
    · rfl
    · dsimp only
      split <;> rfl
  · rfl

end LoopRun

end HftAlgorithms
