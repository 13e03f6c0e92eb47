/-
Module: HftAlgorithms.Proofs.RiskSteps
Purpose: What one call of the risk manager can do.  Every operation is a few
  primitive changes of the ledgers; a property that reads no counter and no flag
  and survives these changes survives the call.
Trusted boundary: none
Main exports: RiskManager.Keeps, RiskManager.Registers, RiskManager.Replaces,
  RiskManager.Keeps.next, RiskManager.configured_next,
  RiskManager.Reachable
-/
import HftAlgorithms.Lib.StateMachine
import HftAlgorithms.Risk.RiskManager

namespace HftAlgorithms

namespace RiskManager

/-! ### Checks and the rate window -/

/-- The refresh touches the per-second window only. -/
theorem refreshRateWindow_eq (manager : RiskManager) (now : Int) :
    ∃ second start, manager.refreshRateWindow now =
      { manager with ordersThisSecond := second, secondWindowStart := start } := by
  rw [refreshRateWindow]
  split
  · exact ⟨_, _, rfl⟩
  · exact ⟨manager.ordersThisSecond, manager.secondWindowStart, rfl⟩

/-- The pure checks do not read the window. -/
@[simp] theorem checkNewOrder_refreshRateWindow (manager : RiskManager) (now : Int) (id : UInt64)
    (side : Side) (qty : UInt32) (price : Int32) :
    (manager.refreshRateWindow now).checkNewOrder id side qty price =
      manager.checkNewOrder id side qty price := by
  obtain ⟨second, start, refreshed⟩ := manager.refreshRateWindow_eq now
  rw [refreshed]
  rfl

@[simp] theorem checkModifyOrder_refreshRateWindow (manager : RiskManager) (now : Int)
    (id : UInt64) (side : Side) (qty : UInt32) (price : Int32) :
    (manager.refreshRateWindow now).checkModifyOrder id side qty price =
      manager.checkModifyOrder id side qty price := by
  obtain ⟨second, start, refreshed⟩ := manager.refreshRateWindow_eq now
  rw [refreshed]
  rfl

/-- A new order that the call forwards and the sender acknowledges. -/
structure Registers (manager : RiskManager) (call : RiskCall) (id : UInt64)
    (info : OpenOrderInfo) : Prop where
  op : call.op = .sendNewOrder id info.symbol info.side info.qty info.price
  admitted :
    (manager.refreshRateWindow call.env.now).admitsNewOrder id info.side info.qty info.price
  answered : call.env.answer (.newOrder id info.symbol info.side info.qty info.price)

/-- A modify of an open order that the call forwards and the sender acknowledges. -/
structure Replaces (manager : RiskManager) (call : RiskCall) (id : UInt64)
    (existing replacement : OpenOrderInfo) : Prop where
  op : call.op = .modifyOrder id replacement.side replacement.qty replacement.price
  found : manager.openOrders.lookup id = some existing
  symbol : replacement.symbol = existing.symbol
  admitted : (manager.refreshRateWindow call.env.now).admitsModify id replacement.side
    replacement.qty replacement.price
  answered : call.env.answer (.modifyOrder id replacement.side replacement.qty replacement.price)

theorem Registers.check {manager : RiskManager} {call : RiskCall} {id : UInt64}
    {info : OpenOrderInfo} (registers : manager.Registers call id info) :
    manager.checkNewOrder id info.side info.qty info.price = .OK := by
  have admitted := registers.admitted
  rw [admitsNewOrder, decide_eq_true_eq, checkNewOrder_refreshRateWindow] at admitted
  exact admitted.1

theorem Replaces.check {manager : RiskManager} {call : RiskCall} {id : UInt64}
    {existing replacement : OpenOrderInfo}
    (replaces : manager.Replaces call id existing replacement) :
    manager.checkModifyOrder id replacement.side replacement.qty replacement.price = .OK := by
  have admitted := replaces.admitted
  rw [admitsModify, decide_eq_true_eq, checkModifyOrder_refreshRateWindow] at admitted
  exact admitted.1

/-- A modify that passes is about an open order. -/
theorem exists_of_checkModifyOrder {manager : RiskManager} {id : UInt64} {side : Side}
    {qty : UInt32} {price : Int32} (passes : manager.checkModifyOrder id side qty price = .OK) :
    ∃ info, manager.openOrders.lookup id = some info := by
  cases found : manager.openOrders.lookup id with
  | some info => exact ⟨info, rfl⟩
  | none =>
      rw [checkModifyOrder, found] at passes
      split at passes <;> cases passes

/-! ### The rule for one call -/

/-- A property of the ledgers: it reads neither counters nor flags, and it survives the
removal of an order and a new mark price. -/
structure Keeps (keep : RiskManager → Prop) : Prop where
  counters : ∀ manager second start seq last unacked down inDown, keep manager →
    keep { manager with
      ordersThisSecond := second, secondWindowStart := start, ordersThisSeqNum := seq,
      lastSeqNum := last, unackedOrders := unacked, isShutdown := down, inShutdown := inDown }
  forget : ∀ manager id, keep manager → keep (manager.forget id)
  mark : ∀ manager price, keep manager → keep (manager.updateMarkPrice price)

variable {keep : RiskManager → Prop}

theorem Keeps.cancelOne (keeps : Keeps keep) {manager : RiskManager} (env : CallEnv) (id : UInt64)
    (kept : keep manager) : keep (cancelOne env manager id) := by
  rw [RiskManager.cancelOne]
  split
  · exact keeps.forget manager id kept
  · exact kept

theorem Keeps.cancelAllOpenOrders (keeps : Keeps keep) {manager : RiskManager} (env : CallEnv)
    (kept : keep manager) : keep (manager.cancelAllOpenOrders env).manager := by
  rw [RiskManager.cancelAllOpenOrders]
  generalize env.keyOrder.keys manager.openOrders = ids
  induction ids generalizing manager with
  | nil => exact kept
  | cons id ids inductionHypothesis =>
      exact inductionHypothesis (keeps.cancelOne env id kept)

theorem Keeps.checkAndShutdownIfNeeded (keeps : Keeps keep) {manager : RiskManager}
    (env : CallEnv) (kept : keep manager) :
    keep (manager.checkAndShutdownIfNeeded env).manager := by
  rw [RiskManager.checkAndShutdownIfNeeded]
  split
  · exact kept
  split
  · exact kept
  have flagged : keep { manager with isShutdown := true, inShutdown := true } :=
    keeps.counters manager _ _ _ _ _ true true kept
  exact keeps.counters _ _ _ _ _ _ _ false (keeps.cancelAllOpenOrders env flagged)

theorem Keeps.settle (keeps : Keeps keep) {manager : RiskManager} (env : CallEnv)
    (sent : List SenderRequest) (kept : keep manager) : keep (manager.settle env sent).manager :=
  keeps.checkAndShutdownIfNeeded env kept

theorem Keeps.refreshRateWindow (keeps : Keeps keep) {manager : RiskManager} (now : Int)
    (kept : keep manager) : keep (manager.refreshRateWindow now) := by
  obtain ⟨second, start, refreshed⟩ := manager.refreshRateWindow_eq now
  rw [refreshed]
  exact keeps.counters manager _ _ _ _ _ _ _ kept

/-- One call keeps what its registration, its replacement or its fill keeps. -/
theorem Keeps.next (keeps : Keeps keep) {manager : RiskManager} {call : RiskCall}
    (registers : ∀ id info, manager.Registers call id info → keep (manager.register id info))
    (replaces : ∀ id existing replacement, manager.Replaces call id existing replacement →
      keep (manager.replace id replacement))
    (fills : ∀ id qty price closed info, call.op = .onFill id qty price closed →
      manager.openOrders.lookup id = some info →
      keep (manager.afterFill id info.side qty price closed))
    (kept : keep manager) : keep (manager.next call) := by
  obtain ⟨op, env⟩ := call
  obtain ⟨second, start, refreshed⟩ := manager.refreshRateWindow_eq env.now
  cases op with
  | sendNewOrder id symbol side qty price =>
      simp only [RiskManager.next, perform, sendNewOrder]
      split
      · rename_i admitted
        apply keeps.settle
        rw [afterNewOrder]
        split
        · rename_i answered
          rw [refreshed]
          exact keeps.counters _ _ _ _ _ _ _ _
            (registers id ⟨symbol, side, qty, price⟩ ⟨rfl, admitted, answered⟩)
        · rw [refreshed]
          exact keeps.counters manager _ _ _ _ _ _ _ kept
      · exact keeps.refreshRateWindow env.now kept
  | modifyOrder id side qty price =>
      simp only [RiskManager.next, perform, modifyOrder]
      split
      · rename_i admitted
        apply keeps.settle
        rw [afterModify]
        split
        · rename_i answered
          have passes := admitted
          rw [admitsModify, decide_eq_true_eq, checkModifyOrder_refreshRateWindow] at passes
          obtain ⟨existing, found⟩ := exists_of_checkModifyOrder passes.1
          rw [refreshed]
          simp only [found, Option.map_some, Option.getD_some]
          exact keeps.counters _ _ _ _ _ _ _ _
            (replaces id existing ⟨existing.symbol, side, qty, price⟩
              ⟨rfl, found, rfl, admitted, answered⟩)
        · rw [refreshed]
          exact keeps.counters manager _ _ _ _ _ _ _ kept
      · exact keeps.refreshRateWindow env.now kept
  | deleteOrder id =>
      simp only [RiskManager.next, perform, deleteOrder]
      split
      · exact keeps.forget manager id kept
      · exact kept
  | cancelAllOpenOrders => exact keeps.cancelAllOpenOrders env kept
  | onFill id qty price closed =>
      simp only [RiskManager.next, perform, onFill]
      split
      · exact kept
      · rename_i info found
        exact keeps.settle env [] (fills id qty price closed info rfl found)
  | onReject id => exact keeps.forget manager id kept
  | onClose id => exact keeps.forget manager id kept
  | updateMarkPrice markPrice => exact keeps.mark manager markPrice kept
  | onSeqNumUpdate seqNum =>
      simp only [RiskManager.next, perform, onSeqNumUpdate]
      split
      · exact keeps.counters manager _ _ _ _ _ _ _ kept
      · exact kept
  | checkAndShutdownIfNeeded => exact keeps.checkAndShutdownIfNeeded env kept

/-! ### Limits never change -/

/-- The limits, and the copies of them that the trackers hold. -/
structure Configured (limits : RiskLimits) (manager : RiskManager) : Prop where
  own : manager.limits = limits
  maxPosition : manager.positionTracker.maxPosition = limits.maxPosition
  maxExposure : manager.exposureTracker.maxExposure = limits.maxExposure
  minPnl : manager.pnlTracker.minPnl = limits.minPnl

theorem configured_new (limits : RiskLimits) (now : Int) : Configured limits (new limits now) :=
  ⟨rfl, rfl, rfl, rfl⟩

theorem maxExposure_onOrderRemoved (tracker : ExposureTracker) (id : UInt64) :
    (tracker.onOrderRemoved id).maxExposure = tracker.maxExposure := by
  rw [ExposureTracker.onOrderRemoved]
  split
  · rfl
  · exact tracker.maxExposure_setOutstanding _ _

theorem maxExposure_onOrderSent (tracker : ExposureTracker) (id : UInt64) (side : Side)
    (qty : UInt32) (price : Int32) :
    (tracker.onOrderSent id side qty price).maxExposure = tracker.maxExposure :=
  tracker.maxExposure_setOutstanding _ _

theorem maxExposure_onFill (tracker : ExposureTracker) (id : UInt64) (qty : UInt32) :
    (tracker.onFill id qty).maxExposure = tracker.maxExposure := by
  rw [ExposureTracker.onFill]
  split
  · rfl
  · exact tracker.maxExposure_setOutstanding _ _

theorem minPnl_onFill (tracker : PnlTracker) (side : Side) (qty : UInt32) (price : Int32) :
    (tracker.onFill side qty price).minPnl = tracker.minPnl := by
  rw [PnlTracker.onFill]
  split <;> rfl

theorem keeps_configured (limits : RiskLimits) : Keeps (Configured limits) where
  counters _ _ _ _ _ _ _ _ configured :=
    ⟨configured.own, configured.maxPosition, configured.maxExposure, configured.minPnl⟩
  forget manager id configured :=
    ⟨configured.own, configured.maxPosition,
      (maxExposure_onOrderRemoved manager.exposureTracker id).trans configured.maxExposure,
      configured.minPnl⟩
  mark _ _ configured :=
    ⟨configured.own, configured.maxPosition, configured.maxExposure, configured.minPnl⟩

/-- No call changes a limit. -/
theorem configured_next {limits : RiskLimits} {manager : RiskManager}
    (configured : Configured limits manager) (call : RiskCall) :
    Configured limits (manager.next call) := by
  apply (keeps_configured limits).next _ _ _ configured
  · intro id info _
    refine ⟨configured.own, configured.maxPosition, ?_, configured.minPnl⟩
    exact (maxExposure_onOrderSent _ _ _ _ _).trans configured.maxExposure
  · intro id existing replacement _
    refine ⟨configured.own, configured.maxPosition, ?_, configured.minPnl⟩
    exact ((maxExposure_onOrderSent _ _ _ _ _).trans (maxExposure_onOrderRemoved _ _)).trans
      configured.maxExposure
  · intro id qty price closed info _ _
    refine ⟨configured.own, configured.maxPosition, ?_, ?_⟩
    · exact (maxExposure_onFill _ _ _).trans configured.maxExposure
    · exact (minPnl_onFill _ _ _ _).trans configured.minPnl

/-! ### Reachable states -/

/-- A state that some run of calls leaves a fresh manager in. -/
def Reachable (limits : RiskLimits) (manager : RiskManager) : Prop :=
  ∃ (now : Int) (calls : List RiskCall), calls.foldl next (new limits now) = manager

theorem Reachable.configured {limits : RiskLimits} {manager : RiskManager}
    (reachable : Reachable limits manager) : Configured limits manager := by
  obtain ⟨now, calls, rfl⟩ := reachable
  have step : ∀ (before : RiskManager) (call : RiskCall), Configured limits before →
      Configured limits (before.next call) :=
    fun _ call configured => configured_next configured call
  exact StateMachine.invariant_foldl_always step (configured_new limits now) calls

/-- Every request is acknowledged, at one moment. -/
def acknowledged (op : RiskOp) : RiskCall :=
  { op := op, env := { now := 0, answer := fun _ => true, keyOrder := .ascending } }

end RiskManager

end HftAlgorithms
