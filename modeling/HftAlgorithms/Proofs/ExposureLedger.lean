/-
Module: HftAlgorithms.Proofs.ExposureLedger
Purpose: What each operation of the exposure tracker does to the two outstanding
  totals, as exact numbers, as long as the totals cover what is pending.
Trusted boundary: none
Main exports: ExposureTracker.pendingQty, ExposureTracker.remaining,
  ExposureTracker.Covers, ExposureTracker.covers_onOrderSent,
  ExposureTracker.covers_onOrderRemoved, ExposureTracker.covers_onFill
-/
import HftAlgorithms.Risk.Trackers

namespace HftAlgorithms

open FiniteMap

/-- A quantity on one side, seen from a side. -/
def Side.share (side : Side) (of : BookSide) (qty : Nat) : Nat :=
  if side.bookSide = of then qty else 0

theorem Side.share_le (side : Side) (of : BookSide) (qty : Nat) : side.share of qty ≤ qty := by
  rw [Side.share]
  split
  · exact Nat.le_refl _
  · exact Nat.zero_le _

theorem Side.share_mono (side : Side) (of : BookSide) {less more : Nat} (le : less ≤ more) :
    side.share of less ≤ side.share of more := by
  rw [Side.share, Side.share]
  split
  · exact le
  · exact Nat.le_refl _

namespace ExposureTracker

/-- The exact sum of the remaining quantities pending on one side. -/
def pendingQty (tracker : ExposureTracker) (side : BookSide) : Nat :=
  sumBy (fun _ order => order.side.share side order.qty.toNat) tracker.pendingOrders

/-- What is left of one order, nothing if it is not pending. -/
def remaining (tracker : ExposureTracker) (id : UInt64) : Nat :=
  ((tracker.pendingOrders.lookup id).map fun order => order.qty.toNat).getD 0

theorem remaining_of_lookup {tracker : ExposureTracker} {id : UInt64} {order : PendingOrder}
    (found : tracker.pendingOrders.lookup id = some order) :
    tracker.remaining id = order.qty.toNat := by
  simp [remaining, found]

theorem remaining_of_lookup_none {tracker : ExposureTracker} {id : UInt64}
    (absent : tracker.pendingOrders.lookup id = none) : tracker.remaining id = 0 := by
  simp [remaining, absent]

/-- Each total is at least what is pending on its side, so that no subtraction underflows. -/
def Covers (tracker : ExposureTracker) : Prop :=
  ∀ side, tracker.pendingQty side ≤ (tracker.outstanding side).toNat

theorem covers_new (maxExposure : UInt32) : (new maxExposure).Covers := by
  intro side
  exact Nat.zero_le _

/-- The share of one pending order and that of all others. -/
theorem pendingQty_of_lookup {tracker : ExposureTracker} {id : UInt64} {order : PendingOrder}
    (found : tracker.pendingOrders.lookup id = some order) (side : BookSide) :
    tracker.pendingQty side = order.side.share side order.qty.toNat +
      sumBy (fun _ other => other.side.share side other.qty.toNat)
        (tracker.pendingOrders.erase id) :=
  sumBy_of_lookup _ found

theorem Covers.share_le {tracker : ExposureTracker} (covers : tracker.Covers) {id : UInt64}
    {order : PendingOrder} (found : tracker.pendingOrders.lookup id = some order)
    (side : BookSide) :
    order.side.share side order.qty.toNat ≤ (tracker.outstanding side).toNat := by
  have total := covers side
  rw [pendingQty_of_lookup found] at total
  omega

/-- Taking off no more than a total holds. -/
theorem toNat_outstanding_sub {tracker : ExposureTracker} {orderSide : Side} {qty : UInt32}
    (enough : qty.toNat ≤ (tracker.outstanding orderSide.bookSide).toNat) (side : BookSide) :
    ((tracker.setOutstanding orderSide.bookSide
        (tracker.outstanding orderSide.bookSide - qty)).outstanding side).toNat =
      (tracker.outstanding side).toNat - orderSide.share side qty.toNat := by
  rw [outstanding_setOutstanding, Side.share]
  by_cases same : orderSide.bookSide = side
  · subst side
    rw [if_pos rfl, if_pos rfl]
    exact FixedWidth.toNat_sub_of_le enough
  · rw [if_neg (Ne.symm same), if_neg same]
    rfl

/-- The totals are all that `outstanding` reads. -/
theorem outstanding_congr {first second : ExposureTracker}
    (buy : first.outstandingBuyQty = second.outstandingBuyQty)
    (sell : first.outstandingSellQty = second.outstandingSellQty) (side : BookSide) :
    first.outstanding side = second.outstanding side := by
  cases side with
  | bid => exact buy
  | ask => exact sell

/-! ### Sending -/

theorem toNat_outstanding_onOrderSent (tracker : ExposureTracker) (id : UInt64)
    {orderSide : Side} {qty : UInt32} (price : Int32)
    (fits : (tracker.outstanding orderSide.bookSide).toNat + qty.toNat < 2 ^ 32)
    (side : BookSide) :
    ((tracker.onOrderSent id orderSide qty price).outstanding side).toNat =
      (tracker.outstanding side).toNat + orderSide.share side qty.toNat := by
  have unchanged : (tracker.onOrderSent id orderSide qty price).outstanding side =
      (tracker.setOutstanding orderSide.bookSide
        (tracker.outstanding orderSide.bookSide + qty)).outstanding side :=
    outstanding_congr rfl rfl side
  rw [unchanged, outstanding_setOutstanding, Side.share]
  by_cases same : orderSide.bookSide = side
  · subst side
    rw [if_pos rfl, if_pos rfl]
    exact FixedWidth.toNat_add_of_lt fits
  · rw [if_neg (Ne.symm same), if_neg same]
    rfl

theorem covers_onOrderSent {tracker : ExposureTracker} (covers : tracker.Covers) {id : UInt64}
    {orderSide : Side} {qty : UInt32} {price : Int32}
    (fits : (tracker.outstanding orderSide.bookSide).toNat + qty.toNat < 2 ^ 32) :
    (tracker.onOrderSent id orderSide qty price).Covers := by
  intro side
  rw [tracker.toNat_outstanding_onOrderSent id price fits, pendingQty]
  have others : sumBy (fun _ other => other.side.share side other.qty.toNat)
      (tracker.pendingOrders.erase id) ≤ tracker.pendingQty side := by
    cases found : tracker.pendingOrders.lookup id with
    | none => rw [erase_of_lookup_none found, pendingQty]
    | some order =>
        rw [pendingQty_of_lookup found]
        exact Nat.le_add_left _ _
  have sum : sumBy (fun _ other => other.side.share side other.qty.toNat)
      (tracker.onOrderSent id orderSide qty price).pendingOrders =
      orderSide.share side qty.toNat + sumBy (fun _ other => other.side.share side other.qty.toNat)
        (tracker.pendingOrders.erase id) :=
    sumBy_insert _ _ _ _
  have total := covers side
  omega

/-! ### Removing -/

theorem toNat_outstanding_onOrderRemoved {tracker : ExposureTracker} (covers : tracker.Covers)
    {id : UInt64} {order : PendingOrder}
    (found : tracker.pendingOrders.lookup id = some order) (side : BookSide) :
    ((tracker.onOrderRemoved id).outstanding side).toNat =
      (tracker.outstanding side).toNat - order.side.share side order.qty.toNat := by
  have enough := covers.share_le found order.side.bookSide
  rw [Side.share, if_pos rfl] at enough
  rw [onOrderRemoved, found, ← toNat_outstanding_sub enough]
  exact congrArg UInt32.toNat (outstanding_congr rfl rfl side)

theorem onOrderRemoved_of_lookup_none {tracker : ExposureTracker} {id : UInt64}
    (absent : tracker.pendingOrders.lookup id = none) : tracker.onOrderRemoved id = tracker := by
  rw [onOrderRemoved, absent]

theorem pendingOrders_onOrderRemoved (tracker : ExposureTracker) (id : UInt64) :
    (tracker.onOrderRemoved id).pendingOrders = tracker.pendingOrders.erase id := by
  rw [onOrderRemoved]
  cases found : tracker.pendingOrders.lookup id with
  | none => exact (erase_of_lookup_none found).symm
  | some order => rfl

theorem covers_onOrderRemoved {tracker : ExposureTracker} (covers : tracker.Covers)
    (id : UInt64) : (tracker.onOrderRemoved id).Covers := by
  cases found : tracker.pendingOrders.lookup id with
  | none =>
      rw [onOrderRemoved_of_lookup_none found]
      exact covers
  | some order =>
      intro side
      have total := covers side
      rw [pendingQty_of_lookup found] at total
      rw [toNat_outstanding_onOrderRemoved covers found, pendingQty,
        pendingOrders_onOrderRemoved]
      omega

/-- A removal never raises a total. -/
theorem outstanding_onOrderRemoved_le {tracker : ExposureTracker} (covers : tracker.Covers)
    (id : UInt64) (side : BookSide) :
    ((tracker.onOrderRemoved id).outstanding side).toNat ≤ (tracker.outstanding side).toNat := by
  cases found : tracker.pendingOrders.lookup id with
  | none => rw [onOrderRemoved_of_lookup_none found]
  | some order =>
      rw [toNat_outstanding_onOrderRemoved covers found]
      exact Nat.sub_le _ _

/-! ### Filling -/

theorem onFill_of_lookup_none {tracker : ExposureTracker} {id : UInt64}
    (absent : tracker.pendingOrders.lookup id = none) (qty : UInt32) :
    tracker.onFill id qty = tracker := by
  rw [onFill, absent]

theorem toNat_outstanding_onFill {tracker : ExposureTracker} (covers : tracker.Covers)
    {id : UInt64} {order : PendingOrder}
    (found : tracker.pendingOrders.lookup id = some order) {qty : UInt32}
    (le : qty.toNat ≤ order.qty.toNat) (side : BookSide) :
    ((tracker.onFill id qty).outstanding side).toNat =
      (tracker.outstanding side).toNat - order.side.share side qty.toNat := by
  have enough := covers.share_le found order.side.bookSide
  rw [Side.share, if_pos rfl] at enough
  rw [onFill, found, ← toNat_outstanding_sub (Nat.le_trans le enough)]
  exact congrArg UInt32.toNat (outstanding_congr rfl rfl side)

/-- What a fill leaves pending, id by id. -/
theorem lookup_onFill {tracker : ExposureTracker} {id : UInt64} {order : PendingOrder}
    (found : tracker.pendingOrders.lookup id = some order) (qty : UInt32) (other : UInt64) :
    (tracker.onFill id qty).pendingOrders.lookup other =
      if other = id then
        if order.qty - qty = 0 then none else some { order with qty := order.qty - qty }
      else tracker.pendingOrders.lookup other := by
  rw [onFill, found]
  by_cases finished : order.qty - qty = 0
  · simp only [finished, if_true, lookup_erase_eq]
  · simp only [finished, if_false, lookup_insert_eq]

theorem pendingQty_onFill {tracker : ExposureTracker} {id : UInt64} {order : PendingOrder}
    (found : tracker.pendingOrders.lookup id = some order) {qty : UInt32}
    (le : qty.toNat ≤ order.qty.toNat) (side : BookSide) :
    (tracker.onFill id qty).pendingQty side + order.side.share side qty.toNat =
      tracker.pendingQty side := by
  have left : (order.qty - qty).toNat = order.qty.toNat - qty.toNat :=
    FixedWidth.toNat_sub_of_le le
  rw [pendingQty_of_lookup found, pendingQty, onFill, found]
  by_cases finished : order.qty - qty = 0
  · have exhausted : order.qty.toNat = qty.toNat := by
      rw [finished, UInt32.toNat_zero] at left
      omega
    simp only [finished, if_true, exhausted]
    omega
  · simp only [finished, if_false, sumBy_insert, left, Side.share]
    split <;> omega

theorem covers_onFill {tracker : ExposureTracker} (covers : tracker.Covers) {id : UInt64}
    {qty : UInt32} (le : qty.toNat ≤ tracker.remaining id) : (tracker.onFill id qty).Covers := by
  cases found : tracker.pendingOrders.lookup id with
  | none =>
      rw [onFill_of_lookup_none found]
      exact covers
  | some order =>
      rw [remaining_of_lookup found] at le
      intro side
      have total := covers side
      have sum := pendingQty_onFill found le side
      rw [toNat_outstanding_onFill covers found le]
      omega

end ExposureTracker

end HftAlgorithms
