/-
Module: HftAlgorithms.MarketData.Position
Purpose: How a fill moves a signed position, on machine words and exactly.  The
  symbol manager, the position tracker and the PnL tracker all keep one.
Trusted boundary: none
Main exports: movedPosition, exactMove, toInt_movedPosition, MoveFits
-/
import HftAlgorithms.Lib.FixedWidth
import HftAlgorithms.MarketData.Messages

namespace HftAlgorithms

/-- `+=` for a buy and `-=` for any other side.  The quantity is unsigned, so the sum is
taken modulo `2 ^ 32`. -/
def movedPosition (position : Int32) (side : Side) (qty : UInt32) : Int32 :=
  if side = .BUY then position + qty.toInt32 else position - qty.toInt32

/-- The same move without wrapping. -/
def exactMove (position : Int) (side : Side) (qty : Nat) : Int :=
  if side = .BUY then position + qty else position - qty

/-- The machine position follows the exact one while that is a signed word. -/
theorem toInt_movedPosition {position : Int32} {side : Side} {qty : UInt32}
    (low : -2 ^ 31 ≤ exactMove position.toInt side qty.toNat)
    (high : exactMove position.toInt side qty.toNat < 2 ^ 31) :
    (movedPosition position side qty).toInt = exactMove position.toInt side qty.toNat := by
  rw [exactMove] at low high
  rw [movedPosition, exactMove]
  split
  · rename_i buy
    rw [if_pos buy] at low high
    exact FixedWidth.toInt_add_toInt32 low high
  · rename_i sell
    rw [if_neg sell] at low high
    exact FixedWidth.toInt_sub_toInt32 low high

/-- The exact position after the move and its negative are both signed words. -/
def MoveFits (position : Int32) (side : Side) (qty : UInt32) : Prop :=
  -2 ^ 31 < exactMove position.toInt side qty.toNat ∧
    exactMove position.toInt side qty.toNat < 2 ^ 31

instance decidableMoveFits (position : Int32) (side : Side) (qty : UInt32) :
    Decidable (MoveFits position side qty) :=
  inferInstanceAs (Decidable (_ ∧ _))

theorem MoveFits.toInt_movedPosition {position : Int32} {side : Side} {qty : UInt32}
    (fits : MoveFits position side qty) :
    (movedPosition position side qty).toInt = exactMove position.toInt side qty.toNat :=
  HftAlgorithms.toInt_movedPosition (Int.le_of_lt fits.1) fits.2

theorem MoveFits.notLeast {position : Int32} {side : Side} {qty : UInt32}
    (fits : MoveFits position side qty) : movedPosition position side qty ≠ Int32.minValue := by
  intro least
  have low := fits.1
  rw [← fits.toInt_movedPosition, least] at low
  exact absurd low (by decide)

/-- Where the move fits, `std::abs` of the new position is its absolute value. -/
theorem MoveFits.toInt_abs_movedPosition {position : Int32} {side : Side} {qty : UInt32}
    (fits : MoveFits position side qty) :
    (movedPosition position side qty).abs.toInt =
      (exactMove position.toInt side qty.toNat).natAbs := by
  rw [FixedWidth.toInt_abs_of_ne fits.notLeast, fits.toInt_movedPosition]

end HftAlgorithms
