/-
Module: HftAlgorithms.Proofs.EntryOutcomes
Purpose: The exits of `send_new_order` and `modify_order`.  A refused call only
  refreshes the rate window, a rejected one only counts, an accepted one enters
  its order in both ledgers; the shutdown check may then cancel.
Trusted boundary: none
Main exports: EntryCall, RiskManager.UpToShutdown, RiskManager.Rejected,
  RiskManager.Entered, RiskManager.EntryOutcome, EntryCall.perform_entryOutcome
-/
import HftAlgorithms.Proofs.Cancellations

namespace HftAlgorithms

open FiniteMap

/-! ### The two calls -/

inductive EntryCall where
  | sendNewOrder (id : UInt64) (symbol : UInt32) (side : Side) (qty : UInt32) (price : Int32)
  | modifyOrder (id : UInt64) (side : Side) (qty : UInt32) (price : Int32)
deriving DecidableEq, Repr

namespace EntryCall

def id : EntryCall → UInt64
  | .sendNewOrder id _ _ _ _ => id
  | .modifyOrder id _ _ _ => id

/-- What the exposure tracker is to hold for the order. -/
def pending : EntryCall → PendingOrder
  | .sendNewOrder _ _ side qty price => ⟨side, qty, price⟩
  | .modifyOrder _ side qty price => ⟨side, qty, price⟩

def request : EntryCall → SenderRequest
  | .sendNewOrder id symbol side qty price => .newOrder id symbol side qty price
  | .modifyOrder id side qty price => .modifyOrder id side qty price

/-- The risk check and the rate check let the call through. -/
def Passes (manager : RiskManager) : EntryCall → Prop
  | .sendNewOrder id _ side qty price =>
      manager.checkNewOrder id side qty price = .OK ∧ manager.checkRateLimits = .OK
  | .modifyOrder id side qty price =>
      manager.checkModifyOrder id side qty price = .OK ∧ manager.checkRateLimits = .OK

/-- The symbol of the order: a modify keeps the one that the open order has. -/
def Names (manager : RiskManager) (symbol : UInt32) : EntryCall → Prop
  | .sendNewOrder _ given _ _ _ => symbol = given
  | .modifyOrder id _ _ _ =>
      ∃ existing, manager.openOrders.lookup id = some existing ∧ symbol = existing.symbol

/-- What the call takes off a total before it adds its own quantity. -/
def freed (tracker : ExposureTracker) (side : BookSide) : EntryCall → Nat
  | .sendNewOrder _ _ _ _ _ => 0
  | .modifyOrder id _ _ _ => tracker.working id side

def perform (manager : RiskManager) (env : CallEnv) : EntryCall → Outcome × Bool
  | .sendNewOrder id symbol side qty price => manager.sendNewOrder env id symbol side qty price
  | .modifyOrder id side qty price => manager.modifyOrder env id side qty price

end EntryCall

namespace RiskManager

/-! ### What the exits leave behind -/

/-- Nothing but the per-second window differs. -/
def OnlyWindow (before after : RiskManager) : Prop :=
  after =
    { before with
      ordersThisSecond := after.ordersThisSecond, secondWindowStart := after.secondWindowStart }

/-- The two rate counters have grown by one, as numbers. -/
structure Counted (before after : RiskManager) : Prop where
  second : after.ordersThisSecond.toNat = before.ordersThisSecond.toNat + 1
  seqNum : after.ordersThisSeqNum.toNat = before.ordersThisSeqNum.toNat + 1

/-- A call that the sender rejects counts, and that is all. -/
structure Rejected (before after : RiskManager) : Prop where
  counted : Counted before after
  rest : after =
    { before with
      ordersThisSecond := after.ordersThisSecond, ordersThisSeqNum := after.ordersThisSeqNum }

/-- A call that the sender accepts counts and enters its order. -/
structure Entered (call : EntryCall) (before after : RiskManager) : Prop where
  counted : Counted before after
  opened : ∃ symbol, call.Names before symbol ∧ after.openOrders.lookup call.id =
    some ⟨symbol, call.pending.side, call.pending.qty, call.pending.price⟩
  registered : after.exposureTracker.pendingOrders.lookup call.id = some call.pending
  others : ∀ other, other ≠ call.id →
    after.openOrders.lookup other = before.openOrders.lookup other ∧
      after.exposureTracker.pendingOrders.lookup other =
        before.exposureTracker.pendingOrders.lookup other
  outstanding : ∀ side, after.exposureTracker.outstanding side =
    before.exposureTracker.outstanding side -
        UInt32.ofNat (call.freed before.exposureTracker side) +
      UInt32.ofNat (call.pending.side.share side call.pending.qty.toNat)
  maxExposure : after.exposureTracker.maxExposure = before.exposureTracker.maxExposure
  rest : after =
    { before with
      ordersThisSecond := after.ordersThisSecond
      ordersThisSeqNum := after.ordersThisSeqNum
      openOrders := after.openOrders
      exposureTracker := after.exposureTracker }

/-- The check at the end of a call leaves the state alone, or it latches the shutdown and
cancels what is open. -/
def UpToShutdown (env : CallEnv) (manager : RiskManager) (sent : List SenderRequest)
    (outcome : Outcome) : Prop :=
  outcome = ⟨manager, sent⟩ ∨
    manager.breach = true ∧ ∃ deletes, outcome.requests = sent ++ deletes ∧
      Cancellation env { manager with isShutdown := true } ⟨outcome.manager, deletes⟩

/-- The exits of an order-entry call. -/
structure EntryOutcome (manager : RiskManager) (env : CallEnv) (call : EntryCall)
    (result : Outcome × Bool) : Prop where
  window : OnlyWindow manager (manager.refreshRateWindow env.now)
  refused : ¬ call.Passes (manager.refreshRateWindow env.now) →
    result = (⟨manager.refreshRateWindow env.now, []⟩, false)
  rejected : call.Passes (manager.refreshRateWindow env.now) → env.answer call.request = false →
    result.2 = false ∧ ∃ counted, Rejected (manager.refreshRateWindow env.now) counted ∧
      UpToShutdown env counted [call.request] result.1
  accepted : call.Passes (manager.refreshRateWindow env.now) → env.answer call.request = true →
    result.2 = true ∧ ∃ entered, Entered call (manager.refreshRateWindow env.now) entered ∧
      UpToShutdown env entered [call.request] result.1
  unacked : result.1.manager.unackedOrders = manager.unackedOrders

/-! ### The shutdown check -/

/-- Deleting under the flag `in_shutdown_` is deleting without it. -/
theorem cancellation_of_shutdown (env : CallEnv) {manager : RiskManager}
    (idle : manager.inShutdown = false) :
    Cancellation env { manager with isShutdown := true }
      (let cancelled :=
        { manager with isShutdown := true, inShutdown := true }.cancelAllOpenOrders env
      ⟨{ cancelled.manager with inShutdown := false }, cancelled.requests⟩) := by
  have cancellation := cancelAllOpenOrders_cancellation env
    { manager with isShutdown := true, inShutdown := true }
  exact
    { requests := cancellation.requests
      openOrders := cancellation.openOrders
      pendingOrders := cancellation.pendingOrders
      outstanding := cancellation.outstanding
      covered := cancellation.covered
      maxExposure := cancellation.maxExposure
      rest := by
        dsimp only
        rw [cancellation.rest, ← idle] }

theorem settle_upToShutdown (env : CallEnv) (manager : RiskManager)
    (sent : List SenderRequest) : UpToShutdown env manager sent (manager.settle env sent) := by
  by_cases down : manager.isShutdown = true
  · left
    exact settle_of_quiet (Or.inl down) env sent
  by_cases inside : manager.inShutdown = true
  · left
    simp [settle, checkAndShutdownIfNeeded, inside]
  cases breach : manager.breach with
  | false =>
      left
      exact settle_of_quiet (Or.inr breach) env sent
  | true =>
      right
      have breached : ¬ (¬ manager.pnlBreach = true ∧ ¬ manager.posBreach = true) := by
        rw [RiskManager.breach, Bool.or_eq_true] at breach
        tauto
      refine ⟨breach, _, rfl, ?_⟩
      rw [settle, checkAndShutdownIfNeeded, if_neg (by simp [down, inside]), if_neg breached]
      exact cancellation_of_shutdown env (by simpa using inside)

theorem unackedOrders_settle (env : CallEnv) (manager : RiskManager)
    (sent : List SenderRequest) :
    (manager.settle env sent).manager.unackedOrders = manager.unackedOrders := by
  rw [settle, checkAndShutdownIfNeeded]
  split
  · rfl
  split
  · rfl
  · exact @foldl_cancelOne_eq _ RiskManager.unackedOrders (fun _ _ => rfl) env _ _

/-! ### Counting -/

/-- The counters after an answered request, without the one that went up and down. -/
theorem countAnswer_countRequest (manager : RiskManager) :
    manager.countRequest.countAnswer =
      { manager with
        ordersThisSecond := manager.ordersThisSecond + 1
        ordersThisSeqNum := manager.ordersThisSeqNum + 1 } := by
  simp [countRequest, countAnswer]

theorem toNat_add_one {count limit : UInt32} (room : ¬ count ≥ limit) :
    (count + 1).toNat = count.toNat + 1 := by
  have below := UInt32.lt_iff_toNat_lt.mp (UInt32.not_le.mp room)
  have bound := limit.toNat_lt
  apply FixedWidth.toNat_add_of_lt
  change count.toNat + 1 < 2 ^ 32
  omega

/-- Counters below their limits do not wrap. -/
theorem counted_of_checkRateLimits {manager after : RiskManager}
    (passes : manager.checkRateLimits = .OK)
    (second : after.ordersThisSecond = manager.ordersThisSecond + 1)
    (seqNum : after.ordersThisSeqNum = manager.ordersThisSeqNum + 1) : Counted manager after := by
  rw [checkRateLimits] at passes
  split at passes
  · cases passes
  rename_i secondRoom
  split at passes
  · cases passes
  rename_i seqNumRoom
  constructor
  · rw [second, toNat_add_one secondRoom]
  · rw [seqNum, toNat_add_one seqNumRoom]

theorem rejected_of_checkRateLimits {manager : RiskManager}
    (passes : manager.checkRateLimits = .OK) :
    Rejected manager manager.countRequest.countAnswer := by
  rw [countAnswer_countRequest]
  exact ⟨counted_of_checkRateLimits passes rfl rfl, rfl⟩

/-! ### Entering -/

section Entering

variable {manager : RiskManager} (passes : manager.checkRateLimits = .OK) (id : UInt64)
  (symbol : UInt32) (side : Side) (qty : UInt32) (price : Int32)

include passes

theorem entered_register :
    Entered (.sendNewOrder id symbol side qty price) manager
      (manager.afterNewOrder true id symbol side qty price) := by
  have after : manager.afterNewOrder true id symbol side qty price =
      manager.countRequest.countAnswer.register id ⟨symbol, side, qty, price⟩ := rfl
  rw [after, countAnswer_countRequest]
  exact
    { counted := counted_of_checkRateLimits passes rfl rfl
      opened := ⟨symbol, rfl, by simp [register, EntryCall.id, EntryCall.pending]⟩
      registered := by
        simp [register, EntryCall.id, EntryCall.pending, ExposureTracker.onOrderSent]
      others := by
        intro other different
        have ne : other ≠ id := different
        simp [register, ExposureTracker.onOrderSent, ne]
      outstanding := by
        intro total
        apply (ExposureTracker.outstanding_onOrderSent _ id side qty price total).trans
        simp [EntryCall.freed, EntryCall.pending]
      maxExposure := maxExposure_onOrderSent _ id side qty price
      rest := rfl }

theorem entered_replace {existing : OpenOrderInfo}
    (found : manager.openOrders.lookup id = some existing) :
    Entered (.modifyOrder id side qty price) manager
      (manager.afterModify true id side qty price) := by
  have after : manager.afterModify true id side qty price =
      manager.countRequest.countAnswer.replace id ⟨existing.symbol, side, qty, price⟩ := by
    simp [afterModify, found]
  rw [after, countAnswer_countRequest]
  exact
    { counted := counted_of_checkRateLimits passes rfl rfl
      opened := by
        refine ⟨existing.symbol, ⟨existing, found, rfl⟩, ?_⟩
        simp [replace, register, EntryCall.id, EntryCall.pending]
      registered := by
        simp [replace, register, EntryCall.id, EntryCall.pending, ExposureTracker.onOrderSent]
      others := by
        intro other different
        have ne : other ≠ id := different
        simp [replace, register, unregister, ExposureTracker.onOrderSent, ne,
          ExposureTracker.pendingOrders_onOrderRemoved]
      outstanding := by
        intro total
        apply (ExposureTracker.outstanding_onOrderSent _ id side qty price total).trans
        congr 1
        exact ExposureTracker.outstanding_onOrderRemoved _ id total
      maxExposure := by
        apply (maxExposure_onOrderSent _ id side qty price).trans
        exact maxExposure_onOrderRemoved _ id
      rest := rfl }

end Entering

/-! ### The calls -/

theorem unackedOrders_refreshRateWindow (manager : RiskManager) (now : Int) :
    (manager.refreshRateWindow now).unackedOrders = manager.unackedOrders := by
  obtain ⟨second, start, refreshed⟩ := manager.refreshRateWindow_eq now
  rw [refreshed]

theorem onlyWindow_refreshRateWindow (manager : RiskManager) (now : Int) :
    OnlyWindow manager (manager.refreshRateWindow now) := by
  obtain ⟨second, start, refreshed⟩ := manager.refreshRateWindow_eq now
  rw [refreshed, OnlyWindow]

/-- Entering an order gives back the slot of the request. -/
theorem Entered.unackedOrders {call : EntryCall} {before after : RiskManager}
    (entered : Entered call before after) : after.unackedOrders = before.unackedOrders := by
  rw [entered.rest]

theorem Rejected.unackedOrders {before after : RiskManager} (rejected : Rejected before after) :
    after.unackedOrders = before.unackedOrders := by
  rw [rejected.rest]

/-- What the two calls share: refuse, or forward and settle what the answer leaves. -/
theorem entryOutcome_of_exits {manager : RiskManager} {env : CallEnv} {call : EntryCall}
    {result : Outcome × Bool} {onReject onAccept : RiskManager}
    (refuses : ¬ call.Passes (manager.refreshRateWindow env.now) →
      result = (⟨manager.refreshRateWindow env.now, []⟩, false))
    (forwards : call.Passes (manager.refreshRateWindow env.now) →
      result = ((if env.answer call.request then onAccept else onReject).settle env
        [call.request], env.answer call.request))
    (rejects : call.Passes (manager.refreshRateWindow env.now) →
      Rejected (manager.refreshRateWindow env.now) onReject)
    (enters : call.Passes (manager.refreshRateWindow env.now) →
      Entered call (manager.refreshRateWindow env.now) onAccept) :
    EntryOutcome manager env call result where
  window := onlyWindow_refreshRateWindow manager env.now
  refused := refuses
  rejected passes answer := by
    rw [forwards passes, answer]
    exact ⟨rfl, onReject, rejects passes, settle_upToShutdown env onReject _⟩
  accepted passes answer := by
    rw [forwards passes, answer]
    exact ⟨rfl, onAccept, enters passes, settle_upToShutdown env onAccept _⟩
  unacked := by
    have refreshed := manager.unackedOrders_refreshRateWindow env.now
    by_cases passes : call.Passes (manager.refreshRateWindow env.now)
    · rw [forwards passes]
      apply (unackedOrders_settle env _ _).trans
      cases env.answer call.request with
      | false => exact (rejects passes).unackedOrders.trans refreshed
      | true => exact (enters passes).unackedOrders.trans refreshed
    · rw [refuses passes]
      exact refreshed

theorem sendNewOrder_entryOutcome (manager : RiskManager) (env : CallEnv) (id : UInt64)
    (symbol : UInt32) (side : Side) (qty : UInt32) (price : Int32) :
    EntryOutcome manager env (.sendNewOrder id symbol side qty price)
      (manager.sendNewOrder env id symbol side qty price) := by
  apply entryOutcome_of_exits
  · intro refused
    rw [sendNewOrder]
    apply if_neg
    simpa [admitsNewOrder, EntryCall.Passes] using refused
  · intro passes
    rw [sendNewOrder]
    apply (if_pos (by simpa [admitsNewOrder, EntryCall.Passes] using passes)).trans
    cases env.answer (.newOrder id symbol side qty price) <;> rfl
  · intro passes
    exact rejected_of_checkRateLimits passes.2
  · intro passes
    exact entered_register passes.2 id symbol side qty price

theorem modifyOrder_entryOutcome (manager : RiskManager) (env : CallEnv) (id : UInt64)
    (side : Side) (qty : UInt32) (price : Int32) :
    EntryOutcome manager env (.modifyOrder id side qty price)
      (manager.modifyOrder env id side qty price) := by
  apply entryOutcome_of_exits
  · intro refused
    rw [modifyOrder]
    apply if_neg
    simpa [admitsModify, EntryCall.Passes] using refused
  · intro passes
    rw [modifyOrder]
    apply (if_pos (by simpa [admitsModify, EntryCall.Passes] using passes)).trans
    cases env.answer (.modifyOrder id side qty price) <;> rfl
  · intro passes
    exact rejected_of_checkRateLimits passes.2
  · intro passes
    obtain ⟨existing, found⟩ := exists_of_checkModifyOrder passes.1
    exact entered_replace passes.2 id side qty price found

end RiskManager

/-- Every `send_new_order` and every `modify_order`, in any state, leaves by one of these
exits. -/
theorem EntryCall.perform_entryOutcome (env : CallEnv) (manager : RiskManager)
    (call : EntryCall) : manager.EntryOutcome env call (call.perform manager env) := by
  cases call with
  | sendNewOrder id symbol side qty price =>
      exact manager.sendNewOrder_entryOutcome env id symbol side qty price
  | modifyOrder id side qty price => exact manager.modifyOrder_entryOutcome env id side qty price

end HftAlgorithms
