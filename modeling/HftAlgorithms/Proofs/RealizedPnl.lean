/-
Module: HftAlgorithms.Proofs.RealizedPnl
Purpose: What the realized PnL of the symbol manager adds up to.  While no fill
  takes a position short, PnL less the cost of the open positions is the cash
  paid and received; a single short round trip already breaks it.
Trusted boundary: none
Main exports: Fill, cashFlow, SymbolManager.cashBalance,
  SymbolManager.pnl_eq_cashFlow_of_long
-/
import HftAlgorithms.Lib.StateMachine
import HftAlgorithms.MarketData.SymbolManager
import Mathlib.Algebra.BigOperators.Group.Finset.Basic
import Mathlib.Algebra.BigOperators.Group.Finset.Piecewise
import Mathlib.Data.Rat.Cast.Order
import Mathlib.Tactic.FieldSimp
import Mathlib.Tactic.Ring
import Mathlib.Tactic.Linarith

namespace HftAlgorithms

open StateMachine

/-- The arguments of one `on_fill` call. -/
structure Fill where
  symbol : UInt32
  side : Side
  qty : UInt32
  price : Int32
deriving DecidableEq, Repr

/-- One of the thirteen symbols, one of the two sides, a positive price, and a notional
value that fits in 32 bits. -/
structure Fill.Valid (fill : Fill) : Prop where
  symbol : fill.symbol ∈ symbolIds
  side : fill.side = .BUY ∨ fill.side = .SELL
  price : 0 < fill.price
  notional : fill.price.toInt * fill.qty.toNat < 2 ^ 32

/-- What a fill pays in or out. -/
def Fill.cash (fill : Fill) : ℚ :=
  if fill.side = .SELL then fill.price.toInt * fill.qty.toNat
  else -(fill.price.toInt * fill.qty.toNat)

/-- Everything sold less everything bought. -/
def cashFlow (fills : List Fill) : ℚ :=
  (fills.map Fill.cash).sum

/-- What `on_fill` books a fill at.  The notional value of a buy is a 32-bit unsigned product. -/
def Fill.booked (fill : Fill) : ℚ :=
  if fill.side = .SELL then fill.price.toInt * fill.qty.toNat
  else -((fill.price.toUInt32 * fill.qty).toNat : ℚ)

/-- Everything booked. -/
def bookedFlow (fills : List Fill) : ℚ :=
  (fills.map Fill.booked).sum

namespace SymbolManager

def fill (manager : SymbolManager) (fill : Fill) : SymbolManager :=
  manager.onFill fill.symbol fill.side fill.qty fill.price

/-- No open position. -/
def Flat (manager : SymbolManager) : Prop :=
  ∀ id ∈ symbolIds, manager.getPosition id = 0

instance decidableFlat (manager : SymbolManager) : Decidable manager.Flat :=
  Finset.decidableDforallFinset

/-- No short position. -/
def Long (manager : SymbolManager) : Prop :=
  ∀ id ∈ symbolIds, 0 ≤ manager.getPosition id

/-- The position of the fill's symbol after it, without wrapping. -/
def exactPosition (manager : SymbolManager) (fill : Fill) : Int :=
  exactMove (manager.getPosition fill.symbol).toInt fill.side fill.qty.toNat

/-- The fill leaves its symbol neither short nor beyond a signed word. -/
def StaysLong (manager : SymbolManager) (fill : Fill) : Prop :=
  0 ≤ manager.exactPosition fill ∧ manager.exactPosition fill < 2 ^ 31

instance decidableStaysLong (manager : SymbolManager) (fill : Fill) :
    Decidable (manager.StaysLong fill) :=
  inferInstanceAs (Decidable (0 ≤ manager.exactPosition fill ∧ manager.exactPosition fill < 2 ^ 31))

/-- What the open positions cost, at their average entry. -/
def openCost (manager : SymbolManager) : ℚ :=
  ∑ id ∈ symbolIds, manager.avgEntryPrice id * (manager.getPosition id).toInt

/-- The cash the books imply: PnL realized so far less what is still tied up. -/
def cashBalance (manager : SymbolManager) : ℚ :=
  manager.totalPnl - manager.openCost

/-! ### One fill -/

theorem toInt_nonneg_of_le {position : Int32} (long : 0 ≤ position) : 0 ≤ position.toInt := by
  simpa using Int32.le_iff_toInt_le.mp long

/-- The machine position follows the exact one while that is long. -/
theorem toInt_position_of_staysLong {manager : SymbolManager} {fill : Fill}
    (stays : manager.StaysLong fill) :
    (movedPosition (manager.getPosition fill.symbol) fill.side fill.qty).toInt =
      manager.exactPosition fill := by
  have low : -2 ^ 31 ≤ manager.exactPosition fill := by
    have long := stays.1
    omega
  exact toInt_movedPosition low stays.2

/-- The unsigned product `price * qty` is the notional value. -/
theorem toNat_notional {fill : Fill} (valid : fill.Valid) :
    ((fill.price.toUInt32 * fill.qty).toNat : ℚ) = fill.price.toInt * fill.qty.toNat := by
  have positive := Int32.lt_iff_toInt_lt.mp valid.price
  rw [Int32.toInt_zero] at positive
  have value : (fill.price.toUInt32.toNat : Int) = fill.price.toInt := by
    rw [Int32.toNat_toUInt32_of_le (Int32.le_of_lt valid.price)]
    exact Int.toNat_of_nonneg (Int.le_of_lt positive)
  have notional := valid.notional
  rw [← value] at notional
  have fits : fill.price.toUInt32.toNat * fill.qty.toNat < 2 ^ 32 := by exact_mod_cast notional
  rw [UInt32.toNat_mul, Nat.mod_eq_of_lt fits, Nat.cast_mul]
  congr 1
  exact_mod_cast congrArg (Int.cast : Int → ℚ) value

/-- A buy on top of a long position adds its notional value to the cost of the position. -/
theorem averagedEntry_mul (average : ℚ) {oldPos : Int32} {qty : UInt32} (price : Int32)
    (long : 0 ≤ oldPos) (fits : oldPos.toInt + qty.toNat < 2 ^ 31) :
    averagedEntry average oldPos qty price * (oldPos + qty.toInt32).toInt =
      average * oldPos.toInt + (price.toUInt32 * qty).toNat := by
  have nonneg := toInt_nonneg_of_le long
  have moved : (oldPos + qty.toInt32).toInt = oldPos.toInt + qty.toNat :=
    FixedWidth.toInt_add_toInt32 (by omega) fits
  have positive : oldPos + qty.toInt32 > 0 ↔ (0 : Int) < oldPos.toInt + qty.toNat := by
    rw [gt_iff_lt, Int32.lt_iff_toInt_lt, moved, Int32.toInt_zero]
  rw [averagedEntry, max_eq_left long]
  by_cases some_held : (0 : Int) < oldPos.toInt + qty.toNat
  · have nonzero : ((oldPos + qty.toInt32).toInt : ℚ) ≠ 0 := by
      rw [moved]
      exact_mod_cast some_held.ne'
    simp only [if_pos (positive.mpr some_held)]
    exact div_mul_cancel₀ _ nonzero
  · -- nothing held and nothing bought
    have none_held : oldPos.toInt = 0 := by omega
    have none_bought : qty = 0 := UInt32.toNat_inj.mp (by rw [UInt32.toNat_zero]; omega)
    rw [moved]
    simp [none_held, none_bought]

/-- A sell out of a long position realizes the price it gets over the average entry. -/
theorem realized_sell (average : ℚ) {oldPos : Int32} {qty : UInt32} (price : Int32)
    (long : 0 ≤ oldPos) (held : (qty.toNat : Int) ≤ oldPos.toInt) :
    realized average oldPos .SELL qty price = (price.toInt - average) * qty.toNat := by
  have nonneg := toInt_nonneg_of_le long
  have magnitude := FixedWidth.toNat_toUInt32_abs_of_nonneg long
  have closing : min qty oldPos.abs.toUInt32 = qty := by
    rw [UInt32.min_def, if_pos]
    rw [UInt32.le_iff_toNat_le, magnitude]
    omega
  rw [realized, if_pos rfl, closing]

theorem getPosition_fill (manager : SymbolManager) (fill : Fill) (id : UInt32) :
    (manager.fill fill).getPosition id =
      if id = fill.symbol then
        movedPosition (manager.getPosition fill.symbol) fill.side fill.qty
      else manager.getPosition id := by
  by_cases same : id = fill.symbol
  · subst same
    simp [SymbolManager.fill, onFill, getPosition]
  · simp [SymbolManager.fill, onFill, getPosition, same]

theorem long_fill {manager : SymbolManager} {fill : Fill} (long : manager.Long)
    (stays : manager.StaysLong fill) : (manager.fill fill).Long := by
  intro id member
  rw [getPosition_fill]
  split
  · rw [Int32.le_iff_toInt_le, toInt_position_of_staysLong stays, Int32.toInt_zero]
    exact stays.1
  · exact long id member

/-- Only the fill's own symbol changes what its position costs. -/
theorem openCost_fill (manager : SymbolManager) {fill : Fill} (known : fill.symbol ∈ symbolIds) :
    (manager.fill fill).openCost =
      manager.openCost
        - manager.avgEntryPrice fill.symbol * (manager.getPosition fill.symbol).toInt
        + (manager.fill fill).avgEntryPrice fill.symbol
          * ((manager.fill fill).getPosition fill.symbol).toInt := by
  rw [openCost, openCost, ← Finset.add_sum_erase symbolIds _ known,
    ← Finset.add_sum_erase symbolIds _ known]
  have others : ∀ id ∈ symbolIds.erase fill.symbol,
      (manager.fill fill).avgEntryPrice id * ((manager.fill fill).getPosition id).toInt =
        manager.avgEntryPrice id * (manager.getPosition id).toInt := by
    intro id member
    have different := Finset.ne_of_mem_erase member
    rw [getPosition_fill, if_neg different]
    simp [SymbolManager.fill, onFill, different]
  rw [Finset.sum_congr rfl others]
  ring

/-- While positions stay long, a fill moves the implied cash by what it is booked at. -/
theorem cashBalance_fill_booked {manager : SymbolManager} {fill : Fill} (long : manager.Long)
    (known : fill.symbol ∈ symbolIds) (twoSided : fill.side = .BUY ∨ fill.side = .SELL)
    (stays : manager.StaysLong fill) :
    (manager.fill fill).cashBalance = manager.cashBalance + fill.booked := by
  have held := long fill.symbol known
  have nonneg := toInt_nonneg_of_le held
  have moved := toInt_position_of_staysLong stays
  obtain ⟨low, high⟩ := stays
  rw [cashBalance, cashBalance, openCost_fill manager known, getPosition_fill, if_pos rfl]
  rcases twoSided with buy | sell
  · have fits : (manager.getPosition fill.symbol).toInt + fill.qty.toNat < 2 ^ 31 := by
      simpa [exactPosition, exactMove, buy] using high
    have cost := averagedEntry_mul (manager.avgEntryPrice fill.symbol) fill.price held fits
    have average : (manager.fill fill).avgEntryPrice fill.symbol =
        averagedEntry (manager.avgEntryPrice fill.symbol) (manager.getPosition fill.symbol)
          fill.qty fill.price := by
      simp [SymbolManager.fill, onFill, buy, getPosition]
    have pnl : (manager.fill fill).totalPnl = manager.totalPnl := by
      have notShort := Int32.not_lt.mpr held
      rw [getPosition] at notShort
      simp [SymbolManager.fill, onFill, buy, notShort]
    rw [pnl, average, buy, movedPosition, if_pos rfl, cost, Fill.booked, buy,
      if_neg (by decide)]
    ring
  · have enough : (fill.qty.toNat : Int) ≤ (manager.getPosition fill.symbol).toInt := by
      have left : 0 ≤ (manager.getPosition fill.symbol).toInt - fill.qty.toNat := by
        simpa [exactPosition, exactMove, sell] using low
      omega
    have average : (manager.fill fill).avgEntryPrice fill.symbol =
        manager.avgEntryPrice fill.symbol := by
      simp [SymbolManager.fill, onFill, sell]
    have exact : ((manager.exactPosition fill : Int) : ℚ) =
        (manager.getPosition fill.symbol).toInt - fill.qty.toNat := by
      rw [exactPosition, exactMove, sell, if_neg (by decide)]
      push_cast
      ring
    have pnl : (manager.fill fill).totalPnl = manager.totalPnl
        + (fill.price.toInt - manager.avgEntryPrice fill.symbol) * fill.qty.toNat := by
      by_cases open_long : manager.getPosition fill.symbol > 0
      · have profit := realized_sell (manager.avgEntryPrice fill.symbol) fill.price held enough
        rw [getPosition] at open_long profit
        simp [SymbolManager.fill, onFill, sell, open_long, profit]
      · -- a flat position has nothing to sell, and the fill is empty
        have flat : (manager.getPosition fill.symbol).toInt = 0 := by
          have notPositive := Int32.le_iff_toInt_le.mp (Int32.not_lt.mp open_long)
          rw [Int32.toInt_zero] at notPositive
          omega
        have empty : fill.qty = 0 := UInt32.toNat_inj.mp (by rw [UInt32.toNat_zero]; omega)
        rw [getPosition] at open_long
        simp [SymbolManager.fill, onFill, sell, open_long, empty]
    rw [pnl, average, moved, exact, Fill.booked, if_pos sell]
    ring

/-- A valid fill is booked at its cash. -/
theorem booked_of_valid {fill : Fill} (valid : fill.Valid) : fill.booked = fill.cash := by
  rw [Fill.booked, Fill.cash, toNat_notional valid]

theorem cashBalance_fill {manager : SymbolManager} {fill : Fill} (long : manager.Long)
    (valid : fill.Valid) (stays : manager.StaysLong fill) :
    (manager.fill fill).cashBalance = manager.cashBalance + fill.cash := by
  rw [cashBalance_fill_booked long valid.symbol valid.side stays, booked_of_valid valid]

/-! ### Runs -/

/-- The books imply no cash where no position is open. -/
theorem cashBalance_of_flat {manager : SymbolManager} (flat : manager.Flat) :
    manager.cashBalance = manager.totalPnl := by
  have free : manager.openCost = 0 := by
    apply Finset.sum_eq_zero
    intro id member
    simp [flat id member]
  rw [cashBalance, free, sub_zero]

theorem long_of_flat {manager : SymbolManager} (flat : manager.Flat) : manager.Long := by
  intro id member
  rw [flat id member]

/-- From flat with zero PnL, as long as no fill leaves a position short or beyond a signed
word: whenever every position is zero again the total PnL is what was sold less what was
bought. -/
theorem pnl_eq_cashFlow_of_long {start : SymbolManager} (flat : start.Flat)
    (noPnl : start.totalPnl = 0) {fills : List Fill} (valid : ∀ fill ∈ fills, fill.Valid)
    (stays : Along SymbolManager.fill StaysLong start fills) :
    ∀ earlier, earlier <+: fills → (earlier.foldl SymbolManager.fill start).Flat →
      (earlier.foldl SymbolManager.fill start).getTotalPnl = cashFlow earlier := by
  intro earlier isPrefix flatAgain
  have run : Along SymbolManager.fill (fun manager fill => fill.Valid ∧ manager.StaysLong fill)
      start earlier :=
    (stays.earlier isPrefix).and_inputs fun fill member => valid fill (isPrefix.subset member)
  have balance : (earlier.foldl SymbolManager.fill start).cashBalance =
      start.cashBalance + cashFlow earlier := by
    refine measure_foldl ?_ ?_ (long_of_flat flat) run
    · intro manager fill long allowed
      exact long_fill long allowed.2
    · intro manager fill long allowed
      exact cashBalance_fill long allowed.1 allowed.2
  rw [cashBalance_of_flat flat, noPnl, zero_add, cashBalance_of_flat flatAgain] at balance
  exact balance

/-- Two buys at different prices and a sell of all of it. -/
def longRoundTrip : List Fill :=
  [⟨3, .BUY, 2, 100⟩, ⟨3, .BUY, 1, 103⟩, ⟨3, .SELL, 3, 106⟩]

theorem pnl_eq_cashFlow_of_long_longRoundTrip :
    (longRoundTrip.foldl SymbolManager.fill empty).getTotalPnl = cashFlow longRoundTrip := by
  have flatAgain : (longRoundTrip.foldl SymbolManager.fill empty).Flat := by decide
  refine pnl_eq_cashFlow_of_long ?_ rfl ?_ ?_ longRoundTrip (List.prefix_refl _) flatAgain
  · decide
  · intro fill member
    simp only [longRoundTrip, List.mem_cons, List.not_mem_nil, or_false] at member
    rcases member with rfl | rfl | rfl <;> exact ⟨by decide, by decide, by decide, by decide⟩
  · simp only [longRoundTrip, along_cons, along_nil]
    decide

/-- A short round trip that gains 10. -/
def shortRoundTrip : List Fill :=
  [⟨3, .SELL, 1, 100⟩, ⟨3, .BUY, 1, 90⟩]

/-- The covering buy sets the average to its own price before the gain is computed from it,
so the round trip books nothing. -/
theorem shortRoundTrip_books_nothing :
    (∀ fill ∈ shortRoundTrip, fill.Valid) ∧ empty.Flat ∧ empty.totalPnl = 0 ∧
      (shortRoundTrip.foldl SymbolManager.fill empty).Flat ∧
      (shortRoundTrip.foldl SymbolManager.fill empty).getTotalPnl ≠ cashFlow shortRoundTrip := by
  refine ⟨?_, by decide, rfl, by decide, by decide +kernel⟩
  intro fill member
  simp only [shortRoundTrip, List.mem_cons, List.not_mem_nil, or_false] at member
  rcases member with rfl | rfl <;> exact ⟨by decide, by decide, by decide, by decide⟩

end SymbolManager

end HftAlgorithms
