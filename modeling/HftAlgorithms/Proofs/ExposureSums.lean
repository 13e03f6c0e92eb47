/-
Module: HftAlgorithms.Proofs.ExposureSums
Purpose: The two totals of the exposure tracker are the sums of what is left of its
  pending orders, in every run that sends no pending id, fills no more than is
  left and keeps the sums within a word; and an order is pending from its
  sending until it is removed or its fills add up to it.
Trusted boundary: none
Main exports: ExposureCall, ExposureTracker.next, ExposureTracker.Allows,
  ExposureTracker.NoUnderflow, fillsOf, EndedBy, ExposureTracker.sums_of_run
-/
import HftAlgorithms.Lib.StateMachine
import HftAlgorithms.Proofs.ExposureLedger

namespace HftAlgorithms

open FiniteMap StateMachine

/-- The calls that change an exposure tracker. -/
inductive ExposureCall where
  | onOrderSent (id : UInt64) (side : Side) (qty : UInt32) (price : Int32)
  | onOrderRemoved (id : UInt64)
  | onFill (id : UInt64) (qty : UInt32)
deriving DecidableEq, Repr

/-- The id, if the call sends an order. -/
def ExposureCall.sent : ExposureCall → Option UInt64
  | .onOrderSent id _ _ _ => some id
  | .onOrderRemoved _ => none
  | .onFill _ _ => none

/-- The quantity, if the call is a fill of the order. -/
def ExposureCall.fillOf (id : UInt64) : ExposureCall → Option Nat
  | .onOrderSent _ _ _ _ => none
  | .onOrderRemoved _ => none
  | .onFill other qty => if other = id then some qty.toNat else none

/-- The quantities of the fills of one order. -/
def fillsOf (id : UInt64) (calls : List ExposureCall) : List Nat :=
  calls.filterMap (ExposureCall.fillOf id)

/-- Some calls end an order that so much is left of: it is removed, or it is filled and its fills
add up to that much. -/
def EndedBy (id : UInt64) (left : Nat) (calls : List ExposureCall) : Prop :=
  .onOrderRemoved id ∈ calls ∨ (fillsOf id calls ≠ [] ∧ left ≤ (fillsOf id calls).sum)

namespace ExposureTracker

def next (tracker : ExposureTracker) : ExposureCall → ExposureTracker
  | .onOrderSent id side qty price => tracker.onOrderSent id side qty price
  | .onOrderRemoved id => tracker.onOrderRemoved id
  | .onFill id qty => tracker.onFill id qty

/-- The tracker after some calls. -/
def after (maxExposure : UInt32) (calls : List ExposureCall) : ExposureTracker :=
  calls.foldl next (new maxExposure)

/-- No order is sent under an id that is pending, and none is filled beyond what is left of it. -/
def Admits (tracker : ExposureTracker) : ExposureCall → Prop
  | .onOrderSent id _ _ _ => tracker.pendingOrders.lookup id = none
  | .onOrderRemoved _ => True
  | .onFill id qty => ∀ order, tracker.pendingOrders.lookup id = some order →
      qty.toNat ≤ order.qty.toNat

/-- Besides that, what is pending on each side afterwards adds up to less than `2 ^ 32`. -/
def Allows (tracker : ExposureTracker) (call : ExposureCall) : Prop :=
  tracker.Admits call ∧ ∀ side, (tracker.next call).pendingQty side < 2 ^ 32

/-- Whatever a call takes off a total or off an order is there to be taken. -/
def NoUnderflow (tracker : ExposureTracker) : ExposureCall → Prop
  | .onOrderSent _ _ _ _ => True
  | .onOrderRemoved id => ∀ order, tracker.pendingOrders.lookup id = some order →
      order.qty ≤ tracker.outstanding order.side.bookSide
  | .onFill id qty => ∀ order, tracker.pendingOrders.lookup id = some order →
      qty ≤ tracker.outstanding order.side.bookSide ∧ qty ≤ order.qty

/-- Both totals are the sums of what is pending. -/
def Exact (tracker : ExposureTracker) : Prop :=
  ∀ side, (tracker.outstanding side).toNat = tracker.pendingQty side

/-! ### The sums -/

theorem Exact.covers {tracker : ExposureTracker} (exact : tracker.Exact) : tracker.Covers :=
  fun side => (exact side).ge

theorem exact_new (maxExposure : UInt32) : (new maxExposure).Exact := by
  intro side
  cases side <;> rfl

theorem pendingQty_onOrderSent {tracker : ExposureTracker} {id : UInt64} (orderSide : Side)
    (qty : UInt32) (price : Int32) (fresh : tracker.pendingOrders.lookup id = none)
    (side : BookSide) :
    (tracker.onOrderSent id orderSide qty price).pendingQty side =
      orderSide.share side qty.toNat + tracker.pendingQty side :=
  sumBy_insert_of_lookup_none _ _ fresh

theorem pendingQty_onOrderRemoved {tracker : ExposureTracker} {id : UInt64}
    {order : PendingOrder} (found : tracker.pendingOrders.lookup id = some order)
    (side : BookSide) :
    order.side.share side order.qty.toNat + (tracker.onOrderRemoved id).pendingQty side =
      tracker.pendingQty side := by
  rw [pendingQty_of_lookup found, pendingQty, pendingOrders_onOrderRemoved]

theorem exact_next {tracker : ExposureTracker} (exact : tracker.Exact) {call : ExposureCall}
    (allows : tracker.Allows call) : (tracker.next call).Exact := by
  intro side
  rcases allows with ⟨admits, fits⟩
  cases call with
  | onOrderSent id orderSide qty price =>
      have sum := pendingQty_onOrderSent orderSide qty price admits
      have room : (tracker.outstanding orderSide.bookSide).toNat + qty.toNat < 2 ^ 32 := by
        have within := fits orderSide.bookSide
        rw [next, sum, Side.share, if_pos rfl] at within
        rw [exact]
        omega
      rw [next, toNat_outstanding_onOrderSent tracker id price room, exact, sum]
      exact Nat.add_comm _ _
  | onOrderRemoved id =>
      rw [next]
      cases found : tracker.pendingOrders.lookup id with
      | none =>
          rw [onOrderRemoved_of_lookup_none found]
          exact exact side
      | some order =>
          have sum := pendingQty_onOrderRemoved found side
          rw [toNat_outstanding_onOrderRemoved exact.covers found, exact]
          omega
  | onFill id qty =>
      rw [next]
      cases found : tracker.pendingOrders.lookup id with
      | none =>
          rw [onFill_of_lookup_none found]
          exact exact side
      | some order =>
          have within := admits order found
          have sum := pendingQty_onFill found within side
          rw [toNat_outstanding_onFill exact.covers found within, exact]
          omega

theorem noUnderflow_of_exact {tracker : ExposureTracker} (exact : tracker.Exact)
    {call : ExposureCall} (allows : tracker.Allows call) : tracker.NoUnderflow call := by
  have whole : ∀ {id order}, tracker.pendingOrders.lookup id = some order →
      order.qty.toNat ≤ (tracker.outstanding order.side.bookSide).toNat := by
    intro id order found
    simpa [Side.share] using exact.covers.share_le found order.side.bookSide
  cases call with
  | onOrderSent id side qty price => trivial
  | onOrderRemoved id =>
      intro order found
      exact UInt32.le_iff_toNat_le.mpr (whole found)
  | onFill id qty =>
      intro order found
      have within := allows.1 order found
      exact ⟨UInt32.le_iff_toNat_le.mpr (within.trans (whole found)),
        UInt32.le_iff_toNat_le.mpr within⟩

/-! ### One order -/

/-- A call leaves an id alone that it does not name. -/
theorem lookup_next_of_absent {tracker : ExposureTracker} {id : UInt64} {call : ExposureCall}
    (absent : tracker.pendingOrders.lookup id = none) (unsent : call.sent ≠ some id) :
    (tracker.next call).pendingOrders.lookup id = none := by
  cases call with
  | onOrderSent other side qty price =>
      have differs : id ≠ other := fun same => unsent (congrArg some same.symm)
      simpa [next, onOrderSent, lookup_insert_eq, differs] using absent
  | onOrderRemoved other =>
      rw [next, pendingOrders_onOrderRemoved, lookup_erase_eq, absent, ite_self]
  | onFill other qty =>
      rw [next]
      cases found : tracker.pendingOrders.lookup other with
      | none => rwa [onFill_of_lookup_none found]
      | some order =>
          have differs : id ≠ other := by
            rintro rfl
            rw [absent] at found
            cases found
          rwa [lookup_onFill found, if_neg differs]

/-- An order that is not pending is not pending again before it is sent. -/
theorem lookup_none_of_unsent {tracker : ExposureTracker} {id : UInt64}
    {calls : List ExposureCall} (absent : tracker.pendingOrders.lookup id = none)
    (unsent : ∀ call ∈ calls, call.sent ≠ some id) :
    (calls.foldl next tracker).pendingOrders.lookup id = none := by
  have never : Along next (fun _ call => call.sent ≠ some id) tracker calls :=
    along_of_forall unsent
  apply @invariant_foldl _ _ next (fun _ call => call.sent ≠ some id)
    (fun tracker => tracker.pendingOrders.lookup id = none) _ _ _ absent never
  intro before call absent unsent
  exact lookup_next_of_absent absent unsent

/-- What a call does to a pending order. -/
theorem lookup_next_of_found {tracker : ExposureTracker} {id : UInt64} {order : PendingOrder}
    (found : tracker.pendingOrders.lookup id = some order) {call : ExposureCall}
    (unsent : call.sent ≠ some id) :
    (tracker.next call).pendingOrders.lookup id =
      match call with
      | .onOrderSent _ _ _ _ => some order
      | .onOrderRemoved other => if other = id then none else some order
      | .onFill other qty =>
          if other = id then
            if order.qty - qty = 0 then none else some { order with qty := order.qty - qty }
          else some order := by
  cases call with
  | onOrderSent other side qty price =>
      have differs : id ≠ other := fun same => unsent (congrArg some same.symm)
      simpa [next, onOrderSent, lookup_insert_eq, differs] using found
  | onOrderRemoved other =>
      simp only [next, pendingOrders_onOrderRemoved, lookup_erase_eq, found, eq_comm]
  | onFill other qty =>
      by_cases same : other = id
      · subst other
        simp only [next, lookup_onFill found, if_true]
      · have differs : id ≠ other := Ne.symm same
        simp only [next, same, if_false]
        cases other_found : tracker.pendingOrders.lookup other with
        | none => rwa [onFill_of_lookup_none other_found]
        | some another => rwa [lookup_onFill other_found, if_neg differs]

/-- What calls that do not send the id again leave of an order: nothing if they end it, and else all
but its fills. -/
def AsTold (tracker : ExposureTracker) (id : UInt64) (order : PendingOrder)
    (calls : List ExposureCall) : Prop :=
  (EndedBy id order.qty.toNat calls → tracker.pendingOrders.lookup id = none) ∧
    (¬ EndedBy id order.qty.toNat calls →
      ∃ left, tracker.pendingOrders.lookup id = some left ∧ left.side = order.side ∧
        left.price = order.price ∧
        left.qty.toNat + (fillsOf id calls).sum = order.qty.toNat)

section AsTold

variable {last : ExposureTracker} {id : UInt64} {order : PendingOrder} {calls : List ExposureCall}

theorem asTold_nil (found : last.pendingOrders.lookup id = some order) :
    last.AsTold id order [] := by
  have goesOn : ¬ EndedBy id order.qty.toNat [] := by simp [EndedBy, fillsOf]
  exact ⟨fun ended => absurd ended goesOn, fun _ => ⟨order, found, rfl, rfl, by simp [fillsOf]⟩⟩

/-- A call about another order tells nothing. -/
theorem AsTold.cons_of_other {call : ExposureCall} (told : last.AsTold id order calls)
    (noFill : call.fillOf id = none) (noRemoval : call ≠ .onOrderRemoved id) :
    last.AsTold id order (call :: calls) := by
  have fills : fillsOf id (call :: calls) = fillsOf id calls := by
    simp [fillsOf, noFill]
  have ends : EndedBy id order.qty.toNat (call :: calls) ↔ EndedBy id order.qty.toNat calls := by
    simp [EndedBy, fills, noRemoval.symm]
  rw [AsTold, ends, fills]
  exact told

theorem asTold_of_removed (gone : last.pendingOrders.lookup id = none) :
    last.AsTold id order (.onOrderRemoved id :: calls) := by
  have ended : EndedBy id order.qty.toNat (.onOrderRemoved id :: calls) :=
    Or.inl List.mem_cons_self
  exact ⟨fun _ => gone, fun goesOn => absurd ended goesOn⟩

theorem asTold_of_filled {qty : UInt32} (gone : last.pendingOrders.lookup id = none)
    (whole : order.qty.toNat = qty.toNat) :
    last.AsTold id order (.onFill id qty :: calls) := by
  have ended : EndedBy id order.qty.toNat (.onFill id qty :: calls) := by
    refine Or.inr ⟨by simp [fillsOf, ExposureCall.fillOf], ?_⟩
    simp [fillsOf, ExposureCall.fillOf, whole]
  exact ⟨fun _ => gone, fun goesOn => absurd ended goesOn⟩

/-- What is told of the rest of an order is told of the order. -/
theorem AsTold.cons_of_part {qty : UInt32} (part : qty.toNat < order.qty.toNat)
    (told : last.AsTold id { order with qty := order.qty - qty } calls) :
    last.AsTold id order (.onFill id qty :: calls) := by
  have rest : (order.qty - qty).toNat = order.qty.toNat - qty.toNat :=
    FixedWidth.toNat_sub_of_le part.le
  have fills : fillsOf id (.onFill id qty :: calls) = qty.toNat :: fillsOf id calls := by
    simp [fillsOf, ExposureCall.fillOf]
  have ends : EndedBy id order.qty.toNat (.onFill id qty :: calls) ↔
      EndedBy id (order.qty - qty).toNat calls := by
    have later : order.qty.toNat ≤ qty.toNat + (fillsOf id calls).sum ↔
        fillsOf id calls ≠ [] ∧ order.qty.toNat - qty.toNat ≤ (fillsOf id calls).sum := by
      cases fillsOf id calls with
      | nil => simp [part]
      | cons first others =>
          simp only [ne_eq, reduceCtorEq, not_false_eq_true, true_and]
          omega
    simp [EndedBy, fills, rest, later]
  refine ⟨fun ended => told.1 (ends.mp ended), fun goesOn => ?_⟩
  obtain ⟨left, found, side, price, sum⟩ := told.2 fun ended => goesOn (ends.mpr ended)
  refine ⟨left, found, side, price, ?_⟩
  rw [fills, List.sum_cons]
  simp only [rest] at sum
  omega

end AsTold

/-- A pending order, through calls that do not send its id again. -/
theorem asTold_of_run {tracker : ExposureTracker} {id : UInt64} {order : PendingOrder}
    (found : tracker.pendingOrders.lookup id = some order) {calls : List ExposureCall}
    (unsent : ∀ call ∈ calls, call.sent ≠ some id) (run : Along next Allows tracker calls) :
    (calls.foldl next tracker).AsTold id order calls := by
  induction calls generalizing tracker order with
  | nil => exact asTold_nil found
  | cons call calls inductionHypothesis =>
      have unsentLater : ∀ later ∈ calls, later.sent ≠ some id :=
        fun later member => unsent later (List.mem_cons_of_mem _ member)
      have reached := lookup_next_of_found found (unsent call List.mem_cons_self)
      rw [List.foldl_cons]
      cases call with
      | onOrderSent other side qty price =>
          have told := inductionHypothesis reached unsentLater run.2
          exact told.cons_of_other rfl (by simp)
      | onOrderRemoved other =>
          by_cases same : other = id
          · subst other
            have gone := reached.trans (if_pos rfl)
            exact asTold_of_removed (lookup_none_of_unsent gone unsentLater)
          · have told := inductionHypothesis (reached.trans (if_neg same)) unsentLater run.2
            exact told.cons_of_other rfl (by simp [same])
      | onFill other qty =>
          by_cases same : other = id
          · subst other
            have within : qty.toNat ≤ order.qty.toNat := run.1.1 order found
            have rest := FixedWidth.toNat_sub_of_le within
            simp only [if_true] at reached
            by_cases finished : order.qty - qty = 0
            · have whole : order.qty.toNat = qty.toNat := by
                rw [finished, UInt32.toNat_zero] at rest
                omega
              have gone := reached.trans (if_pos finished)
              exact asTold_of_filled (lookup_none_of_unsent gone unsentLater) whole
            · have part : qty.toNat < order.qty.toNat := by
                have some_left : (order.qty - qty).toNat ≠ 0 := by
                  simpa [← UInt32.toNat_inj] using finished
                omega
              have told := inductionHypothesis (reached.trans (if_neg finished)) unsentLater run.2
              exact told.cons_of_part part
          · have told := inductionHypothesis (reached.trans (if_neg same)) unsentLater run.2
            exact told.cons_of_other (by simp [ExposureCall.fillOf, same]) (by simp)

/-! ### Runs -/

/-- Both totals are exact and nothing underflows, whatever order the calls come in.  Pending are the
orders that have been sent and not ended since, each with what its fills have left of it. -/
theorem sums_of_run (maxExposure : UInt32) (calls : List ExposureCall)
    (run : Along next Allows (new maxExposure) calls) :
    (∀ side, ((after maxExposure calls).outstanding side).toNat =
        (after maxExposure calls).pendingQty side) ∧
      Along next NoUnderflow (new maxExposure) calls ∧
      (∀ earlier id side qty price later,
        calls = earlier ++ .onOrderSent id side qty price :: later →
        (∀ call ∈ later, call.sent ≠ some id) →
        (after maxExposure calls).AsTold id ⟨side, qty, price⟩ later) ∧
      ∀ id, (∀ call ∈ calls, call.sent ≠ some id) →
        (after maxExposure calls).pendingOrders.lookup id = none := by
  have keeps : ∀ (tracker : ExposureTracker) (call : ExposureCall), tracker.Exact →
      tracker.Allows call → (tracker.next call).Exact := fun _ _ exact => exact_next exact
  refine ⟨invariant_foldl keeps (exact_new maxExposure) run, ?_, ?_, ?_⟩
  · apply run.of_invariant keeps _ (exact_new maxExposure)
    exact fun _ _ exact => noUnderflow_of_exact exact
  · rintro earlier id side qty price later rfl unsent
    obtain ⟨-, -, runLater⟩ := (along_append _ _ _).mp run
    rw [after, List.foldl_append, List.foldl_cons]
    have found : ((earlier.foldl next (new maxExposure)).next
        (.onOrderSent id side qty price)).pendingOrders.lookup id = some ⟨side, qty, price⟩ := by
      simp [next, onOrderSent]
    exact asTold_of_run found unsent runLater
  · intro id unsent
    exact lookup_none_of_unsent rfl unsent

instance decidableAdmits (tracker : ExposureTracker) :
    ∀ call : ExposureCall, Decidable (tracker.Admits call)
  | .onOrderSent id _ _ _ => inferInstanceAs (Decidable (tracker.pendingOrders.lookup id = none))
  | .onOrderRemoved _ => isTrue trivial
  | .onFill id qty =>
      decidable_of_iff
        (∀ order ∈ (tracker.pendingOrders.lookup id).toList, qty.toNat ≤ order.qty.toNat)
        (by simp [Admits])

instance decidableAllows (tracker : ExposureTracker) (call : ExposureCall) :
    Decidable (tracker.Allows call) :=
  decidable_of_iff (tracker.Admits call ∧ (tracker.next call).pendingQty .bid < 2 ^ 32 ∧
      (tracker.next call).pendingQty .ask < 2 ^ 32)
    ⟨fun ⟨admits, bid, ask⟩ => ⟨admits, fun side => by cases side <;> assumption⟩,
      fun ⟨admits, fits⟩ => ⟨admits, fits .bid, fits .ask⟩⟩

/-- Two orders; the second is filled in two parts, the first is removed, and the id of the second is
used again. -/
def twoOrders : List ExposureCall :=
  [.onOrderSent 1 .BUY 10 100, .onOrderSent 2 .SELL 6 101, .onFill 2 2, .onFill 1 3, .onFill 2 4,
    .onOrderRemoved 1, .onOrderSent 2 .BUY 5 99]

theorem sums_of_run_twoOrders :
    (after 100 twoOrders).outstandingBuyQty.toNat = (after 100 twoOrders).pendingQty .bid ∧
      (after 100 twoOrders).pendingQty .bid = 5 :=
  ⟨(sums_of_run 100 twoOrders (by decide)).1 .bid, by decide⟩

end ExposureTracker

end HftAlgorithms
