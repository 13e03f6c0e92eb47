/-
Module: HftAlgorithms.Proofs.UnrealizedPnl
Purpose: The unrealized PnL of the tracker against average-cost accounting.  It is
  the profit of the open position as long as no fill has closed any of it; at
  positive prices it is never again once one has.
Trusted boundary: none
Main exports: PnlCall, PnlTracker.next, PnlTracker.FitsCall, PnlTracker.Closes,
  entryAccount, PnlTracker.UnrealizedMatches, PnlTracker.unrealizedMatches_of_run
-/
import HftAlgorithms.Lib.AverageCost
import HftAlgorithms.Lib.StateMachine
import HftAlgorithms.Risk.Trackers
import Mathlib.Algebra.Order.Ring.Rat
import Mathlib.Data.Rat.Cast.Order

namespace HftAlgorithms

open StateMachine

/-- The calls that change a PnL tracker. -/
inductive PnlCall where
  | onFill (side : Side) (qty : UInt32) (price : Int32)
  | updateMarkPrice (price : Int32)
deriving DecidableEq, Repr

/-- What a fill moves a position by. -/
def fillMove (side : Side) (qty : UInt32) : Int :=
  if side = .BUY then qty.toNat else -qty.toNat

theorem exactMove_eq (position : Int) (side : Side) (qty : UInt32) :
    exactMove position side qty.toNat = position + fillMove side qty := by
  rw [exactMove, fillMove]
  split
  · rfl
  · exact Int.sub_eq_add_neg

/-- A fill at a price above zero; the mark may be anything. -/
def PnlCall.Positive : PnlCall → Prop
  | .onFill _ _ price => 0 < price
  | .updateMarkPrice _ => True

/-- The position as its fills make it, at the average entry price of what is still open. -/
def accountStep (account : AverageCost ℚ) : PnlCall → AverageCost ℚ
  | .onFill side qty price => account.fill (fillMove side qty) price.toInt
  | .updateMarkPrice _ => account

def entryAccount (calls : List PnlCall) : AverageCost ℚ :=
  calls.foldl accountStep .flat

namespace PnlTracker

def next (tracker : PnlTracker) : PnlCall → PnlTracker
  | .onFill side qty price => tracker.onFill side qty price
  | .updateMarkPrice price => tracker.updateMarkPrice price

/-- The tracker after some calls. -/
def after (minPnl : ℚ) (calls : List PnlCall) : PnlTracker :=
  calls.foldl next (new minPnl)

/-- A fill leaves the exact position, and its negative, within a signed word. -/
def FitsCall (tracker : PnlTracker) : PnlCall → Prop
  | .onFill side qty _ => MoveFits tracker.position side qty
  | .updateMarkPrice _ => True

/-- A fill that reduces the open position, closes it or turns it around. -/
def Closes (tracker : PnlTracker) : PnlCall → Prop
  | .onFill side qty _ => tracker.position.toInt * fillMove side qty < 0
  | .updateMarkPrice _ => False

/-- An open position's unrealized PnL is its size times what the mark is above its average entry. -/
def UnrealizedMatches (tracker : PnlTracker) (account : AverageCost ℚ) : Prop :=
  tracker.position ≠ 0 →
    tracker.getUnrealizedPnl =
      tracker.position.toInt * (tracker.markPrice.toInt - account.average)

/-- What the tracker has added up. -/
def gross (tracker : PnlTracker) : GrossCost ℚ := ⟨tracker.buyCost, tracker.sellRevenue⟩

/-- The account is of the tracker's position, which can be negated. -/
structure Tracks (tracker : PnlTracker) (account : AverageCost ℚ) : Prop where
  size : account.size = tracker.position.toInt
  notLeast : tracker.position ≠ Int32.minValue

/-! ### One call -/

theorem gross_onFill (tracker : PnlTracker) (side : Side) (qty : UInt32) (price : Int32) :
    (tracker.onFill side qty price).gross =
      tracker.gross.fill (fillMove side qty) price.toInt := by
  by_cases buy : side = .BUY
  · simp [gross, onFill, GrossCost.fill, fillMove, buy]
  · simp [gross, onFill, GrossCost.fill, fillMove, buy]

theorem position_onFill (tracker : PnlTracker) (side : Side) (qty : UInt32) (price : Int32) :
    (tracker.onFill side qty price).position = movedPosition tracker.position side qty := by
  rw [onFill]
  split <;> rfl

theorem tracks_next {tracker : PnlTracker} {account : AverageCost ℚ} {call : PnlCall}
    (tracks : tracker.Tracks account) (fits : tracker.FitsCall call) :
    (tracker.next call).Tracks (accountStep account call) := by
  cases call with
  | onFill side qty price =>
      have moved := MoveFits.toInt_movedPosition fits
      rw [exactMove_eq] at moved
      constructor
      · simp [next, accountStep, position_onFill, moved, tracks.size]
      · rw [next, position_onFill]
        exact MoveFits.notLeast fits
  | updateMarkPrice price => exact ⟨tracks.size, tracks.notLeast⟩

/-- The account and the tracker agree on which fills close. -/
theorem closes_onFill_iff {tracker : PnlTracker} {account : AverageCost ℚ}
    (tracks : tracker.Tracks account) (side : Side) (qty : UInt32) (price : Int32) :
    tracker.Closes (.onFill side qty price) ↔ account.size * fillMove side qty < 0 := by
  rw [Closes, tracks.size]
  norm_cast

/-! ### Reading the unrealized PnL -/

/-- What the tracker answers in terms of its two sums. -/
theorem getUnrealizedPnl_eq {tracker : PnlTracker} (notLeast : tracker.position ≠ Int32.minValue)
    (held_some : tracker.position ≠ 0) :
    tracker.getUnrealizedPnl = tracker.position.toInt * tracker.markPrice.toInt -
      (if 0 < tracker.position.toInt then tracker.buyCost else -tracker.sellRevenue) := by
  have size : (tracker.position.toInt : ℚ) ≠ 0 := by
    intro zero
    apply held_some
    apply Int32.toInt_inj.mp
    exact_mod_cast zero
  have long : 0 < tracker.position ↔ 0 < tracker.position.toInt := by
    rw [Int32.lt_iff_toInt_lt, Int32.toInt_zero]
  rw [getUnrealizedPnl, if_neg held_some, FixedWidth.toInt_neg_of_ne notLeast]
  by_cases isLong : 0 < tracker.position.toInt
  · simp only [long, isLong, if_true]
    rw [mul_sub, mul_div_cancel₀ _ size]
  · simp only [long, isLong, if_false, Int.cast_neg]
    rw [mul_sub, div_neg, mul_neg, mul_div_cancel₀ _ size]

/-- It is right just if the sum that belongs to the side of the position is the cost of the
position. -/
theorem unrealizedMatches_iff {tracker : PnlTracker} {account : AverageCost ℚ}
    (tracks : tracker.Tracks account) (held_some : tracker.position ≠ 0) :
    tracker.UnrealizedMatches account ↔
      account.cost =
        if 0 < tracker.position.toInt then tracker.gross.bought else -tracker.gross.sold := by
  have profit := @AverageCost.unrealized_eq _ _ account (tracker.markPrice.toInt : ℚ)
  rw [AverageCost.unrealized, tracks.size] at profit
  rw [UnrealizedMatches, getUnrealizedPnl_eq tracks.notLeast held_some, profit]
  constructor
  · intro agrees
    have same := agrees held_some
    exact (sub_right_injective same).symm
  · intro cost _
    rw [cost]
    rfl

theorem unrealizedMatches_of_priced {tracker : PnlTracker} {account : AverageCost ℚ}
    (tracks : tracker.Tracks account) (priced : account.Priced tracker.gross) :
    tracker.UnrealizedMatches account := by
  intro held_some
  refine (unrealizedMatches_iff tracks held_some).mpr ?_ held_some
  split
  · rename_i isLong
    have long : 0 ≤ account.size := by
      rw [tracks.size]
      exact_mod_cast isLong.le
    exact priced.long long
  · rename_i isShort
    have short : account.size ≤ 0 := by
      rw [tracks.size]
      exact_mod_cast not_lt.mp isShort
    exact neg_eq_iff_eq_neg.mp (priced.short short)

theorem not_unrealizedMatches_of_exceeded {tracker : PnlTracker} {account : AverageCost ℚ}
    (tracks : tracker.Tracks account) (exceeded : account.Exceeded tracker.gross)
    (held_some : tracker.position ≠ 0) : ¬ tracker.UnrealizedMatches account := by
  rw [unrealizedMatches_iff tracks held_some]
  split
  · rename_i isLong
    have long : 0 ≤ account.size := by
      rw [tracks.size]
      exact_mod_cast isLong.le
    exact (exceeded.long long).ne
  · rename_i isShort
    have short : account.size ≤ 0 := by
      rw [tracks.size]
      exact_mod_cast not_lt.mp isShort
    intro same
    exact (exceeded.short short).ne (neg_eq_iff_eq_neg.mpr same)

/-! ### Runs -/

theorem tracks_new (minPnl : ℚ) : (new minPnl).Tracks .flat where
  size := by simp [AverageCost.flat, new]
  notLeast := by simp only [new]; decide

theorem priced_next {tracker : PnlTracker} {account : AverageCost ℚ} {call : PnlCall}
    (tracks : tracker.Tracks account) (priced : account.Priced tracker.gross)
    (adds : ¬ tracker.Closes call) :
    (accountStep account call).Priced (tracker.next call).gross := by
  cases call with
  | onFill side qty price =>
      rw [closes_onFill_iff tracks, not_lt] at adds
      rw [next, gross_onFill]
      exact AverageCost.priced_fill priced adds
  | updateMarkPrice price => exact priced

theorem within_next {tracker : PnlTracker} {account : AverageCost ℚ} {call : PnlCall}
    (within : account.Within tracker.gross) (positive : call.Positive) :
    (accountStep account call).Within (tracker.next call).gross := by
  cases call with
  | onFill side qty price =>
      have price_pos : (0 : ℚ) < price.toInt := by exact_mod_cast Int32.lt_iff_toInt_lt.mp positive
      rw [next, gross_onFill]
      exact AverageCost.within_fill within price_pos
  | updateMarkPrice price => exact within

/-- A call leaves the sums above the cost if they are so before it or if it closes. -/
theorem exceeded_next {tracker : PnlTracker} {account : AverageCost ℚ} {call : PnlCall}
    (tracks : tracker.Tracks account) (within : account.Within tracker.gross)
    (positive : call.Positive) (gap : account.Exceeded tracker.gross ∨ tracker.Closes call) :
    (accountStep account call).Exceeded (tracker.next call).gross := by
  cases call with
  | onFill side qty price =>
      have price_pos : (0 : ℚ) < price.toInt := by exact_mod_cast Int32.lt_iff_toInt_lt.mp positive
      rw [closes_onFill_iff tracks] at gap
      rw [next, gross_onFill]
      by_cases closes : account.size * fillMove side qty < 0
      · exact AverageCost.exceeded_fill_of_closes within price_pos closes
      · exact AverageCost.exceeded_fill_of_adds (gap.resolve_right closes) (not_lt.mp closes)
  | updateMarkPrice price => exact gap.resolve_right id

section Runs

variable {calls : List PnlCall} {tracker : PnlTracker} {account : AverageCost ℚ}

theorem tracks_of_run (tracks : tracker.Tracks account)
    (fits : Along next FitsCall tracker calls) :
    (calls.foldl next tracker).Tracks (calls.foldl accountStep account) := by
  apply related_foldl _ tracks fits
  intro before account call tracks fits
  exact tracks_next tracks fits

theorem priced_of_run (tracks : tracker.Tracks account) (priced : account.Priced tracker.gross)
    (fits : Along next FitsCall tracker calls)
    (adds : Along next (fun before call => ¬ before.Closes call) tracker calls) :
    (calls.foldl accountStep account).Priced (calls.foldl next tracker).gross := by
  have both : (calls.foldl next tracker).Tracks (calls.foldl accountStep account) ∧
      (calls.foldl accountStep account).Priced (calls.foldl next tracker).gross := by
    apply @related_foldl _ _ _ _ _ _ (fun tracker account =>
      tracker.Tracks account ∧ account.Priced tracker.gross) _ _ _ _ ⟨tracks, priced⟩
      (fits.and adds)
    rintro before account call ⟨tracks, priced⟩ ⟨fits, adds⟩
    exact ⟨tracks_next tracks fits, priced_next tracks priced adds⟩
  exact both.2

theorem within_of_run (within : account.Within tracker.gross)
    (positive : ∀ call ∈ calls, call.Positive) :
    (calls.foldl accountStep account).Within (calls.foldl next tracker).gross := by
  have run : Along next (fun _ call => call.Positive) tracker calls := along_of_forall positive
  apply @related_foldl _ _ _ _ _ _
    (fun (tracker : PnlTracker) (account : AverageCost ℚ) => account.Within tracker.gross) _ _ _ _
    within run
  intro before account call within positive
  exact within_next within positive

theorem exceeded_of_run (tracks : tracker.Tracks account)
    (within : account.Within tracker.gross) (exceeded : account.Exceeded tracker.gross)
    (fits : Along next FitsCall tracker calls) (positive : ∀ call ∈ calls, call.Positive) :
    (calls.foldl accountStep account).Exceeded (calls.foldl next tracker).gross := by
  have all : (calls.foldl next tracker).Tracks (calls.foldl accountStep account) ∧
      (calls.foldl accountStep account).Within (calls.foldl next tracker).gross ∧
      (calls.foldl accountStep account).Exceeded (calls.foldl next tracker).gross := by
    apply @related_foldl _ _ _ _ _ _ (fun tracker account =>
      tracker.Tracks account ∧ account.Within tracker.gross ∧ account.Exceeded tracker.gross)
      _ _ _ _ ⟨tracks, within, exceeded⟩ (fits.and_inputs positive)
    rintro before account call ⟨tracks, within, exceeded⟩ ⟨positive, fits⟩
    exact ⟨tracks_next tracks fits, within_next within positive,
      exceeded_next tracks within positive (Or.inl exceeded)⟩
  exact all.2.2

/-- Once a fill has closed something, the sums are above the cost for good. -/
theorem exceeded_of_closing_run (tracks : tracker.Tracks account)
    (within : account.Within tracker.gross) (fits : Along next FitsCall tracker calls)
    (positive : ∀ call ∈ calls, call.Positive)
    (closed : ¬ Along next (fun before call => ¬ before.Closes call) tracker calls) :
    (calls.foldl accountStep account).Exceeded (calls.foldl next tracker).gross := by
  obtain ⟨earlier, call, later, rfl, closes⟩ := exists_of_not_along closed
  obtain ⟨fitsEarlier, fitsCall, fitsLater⟩ := (along_append _ _ _).mp fits
  have positiveEarlier : ∀ call ∈ earlier, call.Positive :=
    fun other member => positive other (List.mem_append_left _ member)
  have positiveCall : call.Positive := positive call (by simp)
  have positiveLater : ∀ call ∈ later, call.Positive :=
    fun other member => positive other (by simp [member])
  have tracksBefore := tracks_of_run tracks fitsEarlier
  have withinBefore := within_of_run within positiveEarlier
  rw [List.foldl_append, List.foldl_append, List.foldl_cons, List.foldl_cons]
  exact exceeded_of_run (tracks_next tracksBefore fitsCall)
    (within_next withinBefore positiveCall)
    (exceeded_next tracksBefore withinBefore positiveCall (Or.inr (not_not.mp closes)))
    fitsLater positiveLater

end Runs

/-- While positions stay within a signed word, the unrealized PnL of an open position is its size
times what the mark is above the average entry, after every run in which no fill closes anything.
After a run at positive prices it is that only then. -/
theorem unrealizedMatches_of_run (minPnl : ℚ) (calls : List PnlCall)
    (fits : Along next FitsCall (new minPnl) calls) :
    (entryAccount calls).size = (after minPnl calls).position.toInt ∧
      (Along next (fun before call => ¬ before.Closes call) (new minPnl) calls →
        (after minPnl calls).UnrealizedMatches (entryAccount calls)) ∧
      ((∀ call ∈ calls, call.Positive) → (after minPnl calls).position ≠ 0 →
        ((after minPnl calls).UnrealizedMatches (entryAccount calls) ↔
          Along next (fun before call => ¬ before.Closes call) (new minPnl) calls)) := by
  have tracks : (after minPnl calls).Tracks (entryAccount calls) :=
    tracks_of_run (tracks_new minPnl) fits
  have adding : Along next (fun before call => ¬ before.Closes call) (new minPnl) calls →
      (after minPnl calls).UnrealizedMatches (entryAccount calls) := by
    intro adds
    apply unrealizedMatches_of_priced tracks
    exact priced_of_run (tracks_new minPnl) AverageCost.priced_flat fits adds
  refine ⟨tracks.size, adding, ?_⟩
  intro positive held_some
  constructor
  · intro agrees
    by_contra closed
    have exceeded : (entryAccount calls).Exceeded (after minPnl calls).gross :=
      exceeded_of_closing_run (tracks_new minPnl) AverageCost.within_flat fits positive closed
    exact not_unrealizedMatches_of_exceeded tracks exceeded held_some agrees
  · exact adding

instance decidableFitsCall (tracker : PnlTracker) (call : PnlCall) :
    Decidable (tracker.FitsCall call) := by
  cases call with
  | onFill side qty price => exact decidableMoveFits tracker.position side qty
  | updateMarkPrice price => exact isTrue trivial

/-- Ten lots at 100 and five of them sold again at 110, marked at 105. -/
def partialClose : List PnlCall :=
  [.onFill .BUY 10 100, .onFill .SELL 5 110, .updateMarkPrice 105]

/-- Ten lots at 100 and five more at 110, marked at 108. -/
def twoBuys : List PnlCall :=
  [.onFill .BUY 10 100, .onFill .BUY 5 110, .updateMarkPrice 108]

theorem unrealizedMatches_of_run_twoBuys :
    (after 0 twoBuys).UnrealizedMatches (entryAccount twoBuys) := by
  have run := unrealizedMatches_of_run 0 twoBuys ⟨by decide, by decide, trivial, trivial⟩
  exact run.2.1 ⟨by simp only [Closes]; decide, by simp only [Closes]; decide, id, trivial⟩

/-- The five lots that are left were bought at 100, and the tracker takes 200 for what they cost:
it answers -475 for a profit of 25. -/
theorem not_unrealizedMatches_partialClose :
    (after 0 partialClose).getUnrealizedPnl = -475 ∧
      (entryAccount partialClose).unrealized 105 = 25 ∧
      ¬ (after 0 partialClose).UnrealizedMatches (entryAccount partialClose) := by
  have answer : (after 0 partialClose).getUnrealizedPnl = -475 := by decide +kernel
  have average : (entryAccount partialClose).average = 100 := by decide +kernel
  refine ⟨answer, by decide +kernel, ?_⟩
  intro agrees
  have value := agrees (by decide)
  rw [answer, average] at value
  exact absurd value (by decide +kernel)

end PnlTracker

end HftAlgorithms
